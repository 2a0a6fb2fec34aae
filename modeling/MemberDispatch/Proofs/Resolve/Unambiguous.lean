import MemberDispatch.Proofs.Resolve.Nearest

/-!
# Unambiguous overloads

If one accepted list lies below all others, up to boxing, resolution takes it
from the nearest class that declares it.  Which class declares the others, and
in what order, has no influence: the same list is found, and on the same class
as long as the same classes declare it.
-/

set_option autoImplicit false

namespace MemberDispatch

/-! ## Assignability depends on the edges alone -/

namespace Store

variable {store other : Store}

theorem directSupertype_of_supertypes (same : other.supertypes = store.supertypes) :
    other.DirectSupertype = store.DirectSupertype := by
  funext sub sup
  rw [DirectSupertype, DirectSupertype, same]

theorem isSubclass_of_supertypes (same : other.supertypes = store.supertypes)
    (sub sup : ClassId) : other.isSubclass sub sup = store.isSubclass sub sup := by
  rw [Bool.eq_iff_iff, isSubclass_iff_ancestor, isSubclass_iff_ancestor,
    directSupertype_of_supertypes same]

theorem isAssignable_of_supertypes (same : other.supertypes = store.supertypes)
    (target source : Ty) : other.isAssignable target source = store.isAssignable target source := by
  induction target generalizing source with
  | void => cases source <;> rfl
  | primitive kind => cases source <;> rfl
  | ofClass id =>
      cases source with
      | ofClass sub =>
          rw [isAssignable_classes, isAssignable_classes, isSubclass_of_supertypes same]
      | void | primitive | array => rfl
  | array target ih =>
      cases source with
      | array component => rw [isAssignable, isAssignable, ih]
      | void | primitive | ofClass => rfl

theorem narrows_of_supertypes (same : other.supertypes = store.supertypes)
    (lower upper : List Ty) : other.Narrows lower upper ↔ store.Narrows lower upper := by
  simp only [Narrows, isAssignable_of_supertypes same]

end Store

namespace Scope

variable {scope other : Scope} {query : Query} {start id : ClassId} {least found : Candidate}

/-- An accepted member whose types are assignable to those of all others, once
they are boxed. -/
structure Least (scope : Scope) (query : Query) (start : ClassId) (least : Candidate) :
    Prop where
  accepted : ∃ id, scope.Searches start id ∧ scope.Accepted query id least
  below : ∀ id, scope.Searches start id → ∀ candidate, scope.Accepted query id candidate →
    scope.store.Narrows least.realParams candidate.realParams

theorem Least.exists_nearest (isLeast : scope.Least query start least) :
    ∃ height id,
      FirstOf (scope.searched start) (scope.Declares query least.realParams) height id := by
  obtain ⟨id, ⟨height, reached⟩, accepted⟩ := isLeast.accepted
  exact exists_firstOf reached ⟨least, accepted, isExact_iff.mpr rfl⟩

theorem Least.resolve_iff_takes (acyclic : scope.store.Acyclic)
    (object : scope.store.Bare .object) (isLeast : scope.Least query start least) {height : Nat}
    (nearest : FirstOf (scope.searched start) (scope.Declares query least.realParams) height id) :
    scope.resolve query start = some found ↔ scope.Takes query least.realParams id found :=
  resolve_eq_some_iff_takes (prefers_favours_exact acyclic object query.types least.realParams)
    (displaces_favours_exact acyclic object least.realParams) isLeast.below nearest

/-! ## Rearranged overloads -/

/-- Some class on the way up accepts the query with these real parameters. -/
def Lists (scope : Scope) (query : Query) (start : ClassId) (params : List Ty) : Prop :=
  ∃ id, scope.Searches start id ∧
    ∃ candidate, scope.Accepted query id candidate ∧ candidate.realParams = params

/-- The same hierarchy with the same accepted lists, whatever classes on the way
up declare them and in whatever order. -/
structure Rearranges (scope other : Scope) (query : Query) (start : ClassId) : Prop where
  supertypes : other.store.supertypes = scope.store.supertypes
  searched : other.searched start = scope.searched start
  lists : ∀ params, other.Lists query start params ↔ scope.Lists query start params

theorem Rearranges.acyclic (rearranged : scope.Rearranges other query start)
    (acyclic : scope.store.Acyclic) : other.store.Acyclic := by
  rw [Store.Acyclic, Store.directSupertype_of_supertypes rearranged.supertypes]
  exact acyclic

theorem Rearranges.bare (rearranged : scope.Rearranges other query start)
    (bare : scope.store.Bare id) : other.store.Bare id := by
  rw [Store.Bare, rearranged.supertypes]
  exact bare

/-- A least list stays least, on whichever class it is declared now. -/
theorem Rearranges.exists_least (rearranged : scope.Rearranges other query start)
    (isLeast : scope.Least query start least) :
    ∃ again, again.realParams = least.realParams ∧ other.Least query start again := by
  obtain ⟨id, visited, accepted⟩ := isLeast.accepted
  obtain ⟨level, otherVisited, again, againAccepted, same⟩ :=
    (rearranged.lists least.realParams).mpr ⟨id, visited, least, accepted, rfl⟩
  refine ⟨again, same, ⟨level, otherVisited, againAccepted⟩, ?_⟩
  intro passed passedVisited candidate candidateAccepted
  obtain ⟨origin, originVisited, listed, listedAccepted, listedEq⟩ :=
    (rearranged.lists candidate.realParams).mp
      ⟨passed, passedVisited, candidate, candidateAccepted, rfl⟩
  rw [Store.narrows_of_supertypes rearranged.supertypes, same, ← listedEq]
  exact isLeast.below origin originVisited listed listedAccepted

theorem Rearranges.resolves (acyclic : scope.store.Acyclic) (object : scope.store.Bare .object)
    (isLeast : scope.Least query start least) {height : Nat}
    (nearest : FirstOf (scope.searched start) (scope.Declares query least.realParams) height id)
    (rearranged : scope.Rearranges other query start) :
    ∃ again, other.resolve query start = some again ∧
      isExact least.realParams again = true ∧
      ((∀ level, scope.Searches start level →
          (other.Declares query least.realParams level ↔
            scope.Declares query least.realParams level)) →
        again.member ∈ other.store.members id) := by
  obtain ⟨otherLeast, same, otherIsLeast⟩ := rearranged.exists_least isLeast
  obtain ⟨otherHeight, otherId, otherNearest⟩ := otherIsLeast.exists_nearest
  obtain ⟨again, takes⟩ := otherNearest.holds.exists_takes
  have resolved := (otherIsLeast.resolve_iff_takes (rearranged.acyclic acyclic)
    (rearranged.bare object) otherNearest).mpr takes
  rw [same] at otherNearest takes
  obtain ⟨accepted, exact⟩ := mem_exactIn_iff.mp takes.mem
  refine ⟨again, resolved, exact, ?_⟩
  intro sameClasses
  have moved : FirstOf (scope.searched start) (scope.Declares query least.realParams)
      otherHeight otherId := by
    rw [rearranged.searched] at otherNearest
    exact otherNearest.congr fun level passed reached => sameClasses passed ⟨level, reached⟩
  obtain ⟨-, rfl⟩ := nearest.unique moved
  exact accepted.declared

/-- A least list is found.  Resolution takes it from the nearest class that
declares it, and there from the first member with the very types of the query,
or else from the first with that list up to boxing.  However the overloads are
rearranged, the list found is the same, and so is the class while the same
classes declare the list. -/
theorem resolve_of_least (acyclic : scope.store.Acyclic) (object : scope.store.Bare .object)
    (isLeast : scope.Least query start least) :
    ∃ height id found,
      FirstOf (scope.searched start) (scope.Declares query least.realParams) height id ∧
      scope.resolve query start = some found ∧
      found.member ∈ scope.store.members id ∧
      isExact least.realParams found = true ∧
      scope.Takes query least.realParams id found ∧
      ∀ other, scope.Rearranges other query start →
        ∃ again, other.resolve query start = some again ∧
          isExact least.realParams again = true ∧
          ((∀ level, scope.Searches start level →
              (other.Declares query least.realParams level ↔
                scope.Declares query least.realParams level)) →
            again.member ∈ other.store.members id) := by
  obtain ⟨height, id, nearest⟩ := isLeast.exists_nearest
  obtain ⟨found, takes⟩ := nearest.holds.exists_takes
  obtain ⟨accepted, exact⟩ := mem_exactIn_iff.mp takes.mem
  refine ⟨height, id, found, nearest,
    (isLeast.resolve_iff_takes acyclic object nearest).mpr takes, accepted.declared, exact, takes,
    ?_⟩
  intro other rearranged
  exact rearranged.resolves acyclic object isLeast nearest

end Scope

/-! ## Overloads on either side of boxing

A gauge adds numbers, and integers boxed or not; the meter it extends adds any
object, and boxed integers too. -/

namespace Gauges

open Store

def meter : ClassId := ⟨26⟩
def gauge : ClassId := ⟨27⟩

def integer : Ty := .ofClass Primitive.int.wrapper

def adds (param : Ty) : MemberDef :=
  { name := "add", params := [param], returns := .void, isStatic := false,
    visibility := .publicAccess, body := some .receiver }

def scope : Scope :=
  .ofStore
    (platform.addAll
      [{ platformClass "Meter" (some .object) [] with
          members := [adds (.ofClass .object), adds integer] },
        { platformClass "Gauge" (some meter) [] with
          members := [adds (.ofClass .number), adds (.primitive .int), adds integer] }])
    []

def adding : Query := ⟨"add", [integer], .coercive⟩

theorem scope_wellFormed : scope.store.WellFormed :=
  Descending.wellFormed (by decide +kernel)

/-- A boxed integer on a gauge: the list for integers is least, and of the two
members that the gauge has with it the boxed one is taken. -/
theorem resolve_boxed_integer :
    scope.store.Acyclic ∧ scope.store.Bare .object ∧
      ∃ least, scope.Least adding gauge least ∧
        ∃ found, scope.resolve adding gauge = some found ∧
          Scope.isExact least.realParams found = true ∧
          found.member.declaringClass = gauge ∧ found.realParams = [integer] := by
  have listed :
      ((scope.chain gauge).any fun id =>
        (scope.candidatesIn adding id).any fun least =>
          (scope.chain gauge).all fun level =>
            (scope.candidatesIn adding level).all fun other =>
              pairwise (fun low high => scope.store.isAssignable high.boxed low.boxed)
                least.realParams other.realParams) = true := by
    decide +kernel
  have computed :
      ((scope.resolve adding gauge).all fun found =>
        found.member.declaringClass = gauge && found.realParams = [integer]) = true := by
    decide +kernel
  obtain ⟨id, visited, declares⟩ := List.any_eq_true.mp listed
  obtain ⟨least, member, below⟩ := List.any_eq_true.mp declares
  have isLeast : scope.Least adding gauge least := by
    refine ⟨⟨id, Scope.mem_chain_iff.mp visited, Scope.mem_candidatesIn_iff.mp member⟩, ?_⟩
    intro level levelVisited other accepted
    have above := List.all_eq_true.mp below level (Scope.mem_chain_iff.mpr levelVisited)
    exact pairwise_iff.mp
      (List.all_eq_true.mp above other (Scope.mem_candidatesIn_iff.mpr accepted))
  obtain ⟨_, _, found, _, resolved, _, exact, _⟩ :=
    Scope.resolve_of_least scope_wellFormed.acyclic scope_wellFormed.object isLeast
  rw [resolved] at computed
  simp only [Option.all_some, Bool.and_eq_true, decide_eq_true_eq] at computed
  exact ⟨scope_wellFormed.acyclic, scope_wellFormed.object, least, isLeast, found, resolved,
    exact, computed⟩

end Gauges

end MemberDispatch
