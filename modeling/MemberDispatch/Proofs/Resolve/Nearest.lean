import MemberDispatch.Proofs.Hierarchy.Ascent
import MemberDispatch.Proofs.Resolve.Identical

/-!
# The nearest class with a favoured list

Suppose that one list, up to boxing, wins every comparison on the way up.  Then
both scans of resolution come down to looking for it: the nearest class that
declares it is taken, and of its members with that list the first one whose
types are the query's own, or the first of all.
-/

set_option autoImplicit false

namespace MemberDispatch

theorem firstIn_filter {α : Type} {P : α → Prop} {test : α → Bool} {elements : List α}
    {found : α} :
    FirstIn P (elements.filter test) found ↔
      FirstIn (fun element => test element = true ∧ P element) elements found := by
  induction elements with
  | nil => simp [firstIn_nil]
  | cons head rest ih =>
      rw [firstIn_cons]
      cases passes : test head with
      | true => simp [passes, firstIn_cons, ih]
      | false => simp [passes, ih]

namespace Scope

variable {scope : Scope} {query : Query} {types : List Ty} {valid : Candidate → Prop}
variable {start id : ClassId} {found : Candidate}

/-- The class declares an accepted member with the given list, up to boxing. -/
def Declares (scope : Scope) (query : Query) (types : List Ty) (id : ClassId) : Prop :=
  ∃ candidate, scope.Accepted query id candidate ∧ isExact types candidate = true

/-- Of the accepted members of a class with the given list, up to boxing: the
first whose types are the query's own, or the first of all where none is. -/
def Takes (scope : Scope) (query : Query) (types : List Ty) (id : ClassId)
    (found : Candidate) : Prop :=
  FirstIn (fun candidate => isExact types candidate = true ∧ candidate.realParams = query.types)
      (scope.candidatesIn query id) found ∨
    (∀ candidate, scope.Accepted query id candidate → isExact types candidate = true →
        candidate.realParams ≠ query.types) ∧
      FirstIn (fun candidate => isExact types candidate = true)
        (scope.candidatesIn query id) found

def exactIn (scope : Scope) (query : Query) (types : List Ty) (id : ClassId) : List Candidate :=
  (scope.candidatesIn query id).filter (isExact types)

theorem mem_exactIn_iff :
    found ∈ scope.exactIn query types id ↔
      scope.Accepted query id found ∧ isExact types found = true := by
  rw [exactIn, List.mem_filter, mem_candidatesIn_iff]

theorem not_moreSpecific_among_exact {first second : Candidate}
    (firstExact : isExact types first = true) (secondExact : isExact types second = true) :
    scope.store.moreSpecific first.realParams second.realParams = false := by
  apply eq_false_of_ne_true
  apply Store.not_moreSpecific_of_boxed_eq
  exact (isExact_iff.mp firstExact).trans (isExact_iff.mp secondExact).symm

/-- Between lists that boxing identifies only the types of the query count. -/
theorem prefers_among_exact {supplied : List Ty} {challenger incumbent : Candidate}
    (challengerExact : isExact types challenger = true)
    (incumbentExact : isExact types incumbent = true) :
    scope.prefers supplied challenger incumbent =
      (isIdentical supplied challenger && !isIdentical supplied incumbent) := by
  rw [prefers, not_moreSpecific_among_exact challengerExact incumbentExact,
    not_moreSpecific_among_exact incumbentExact challengerExact]
  simp [isIdentical]

theorem takes_iff :
    scope.Takes query types id found ↔
      ((scope.exactIn query types id).find? (isIdentical query.types)).or
        (scope.exactIn query types id).head? = some found := by
  have first : FirstIn (fun candidate => isExact types candidate = true ∧
        candidate.realParams = query.types) (scope.candidatesIn query id) found ↔
      (scope.exactIn query types id).find? (isIdentical query.types) = some found := by
    rw [← firstIn_iff_find?, exactIn, firstIn_filter]
    simp only [isIdentical_iff]
  have absent : (∀ candidate, scope.Accepted query id candidate →
        isExact types candidate = true → candidate.realParams ≠ query.types) ↔
      (scope.exactIn query types id).find? (isIdentical query.types) = none := by
    simp only [List.find?_eq_none, mem_exactIn_iff, isIdentical_iff, and_imp, ne_eq]
  have all : FirstIn (fun candidate => isExact types candidate = true)
        (scope.candidatesIn query id) found ↔
      (scope.exactIn query types id).head? = some found := by
    rw [firstIn_iff_find?, exactIn, List.head?_filter]
  rw [Takes, first, absent, all]
  cases (scope.exactIn query types id).find? (isIdentical query.types) <;> simp

/-! ## Within a class -/

theorem candidateIn_eq_some_iff_takes
    (favours : Favours (scope.prefers query.types) valid (isExact types))
    (allValid : ∀ candidate, scope.Accepted query id candidate → valid candidate)
    (declares : scope.Declares query types id) :
    scope.candidateIn query id = some found ↔ scope.Takes query types id found := by
  obtain ⟨candidate, accepted, exact⟩ := declares
  have present : scope.exactIn query types id ≠ [] :=
    List.ne_nil_of_mem (mem_exactIn_iff.mpr ⟨accepted, exact⟩)
  rw [takes_iff, candidateIn_eq_champion?,
    favours.champion?_eq (fun other member => allValid other (mem_candidatesIn_iff.mp member)) present,
    ← exactIn, champion?_eq_find?_or_head?]
  intro challenger challengerMember incumbent incumbentMember
  exact prefers_among_exact (mem_exactIn_iff.mp challengerMember).2
    (mem_exactIn_iff.mp incumbentMember).2

theorem Takes.mem (takes : scope.Takes query types id found) :
    found ∈ scope.exactIn query types id := by
  rw [exactIn, List.mem_filter]
  rcases takes with first | ⟨_, first⟩
  · exact ⟨first.mem, first.holds.1⟩
  · exact ⟨first.mem, first.holds⟩

theorem Declares.exists_takes (declares : scope.Declares query types id) :
    ∃ found, scope.Takes query types id found := by
  obtain ⟨candidate, accepted, exact⟩ := declares
  have member := mem_exactIn_iff.mpr ⟨accepted, exact⟩
  simp only [takes_iff]
  cases first : (scope.exactIn query types id).find? (isIdentical query.types) with
  | some found => exact ⟨found, rfl⟩
  | none =>
      cases all : scope.exactIn query types id with
      | nil => simp [all] at member
      | cons head rest => exact ⟨head, rfl⟩

theorem declares_iff_exists_representative
    (favours : Favours (scope.prefers query.types) valid (isExact types))
    (allValid : ∀ candidate, scope.Accepted query id candidate → valid candidate) :
    scope.Declares query types id ↔
      ∃ kept, scope.candidateIn query id = some kept ∧ isExact types kept = true := by
  constructor
  · intro declares
    obtain ⟨found, takes⟩ := declares.exists_takes
    exact ⟨found, (candidateIn_eq_some_iff_takes favours allValid declares).mpr takes,
      (mem_exactIn_iff.mp takes.mem).2⟩
  · rintro ⟨kept, represents, exact⟩
    exact ⟨kept, candidateIn_accepted represents, exact⟩

/-! ## Along the chain -/

/-- If a list wins all comparisons in the classes and between them, resolution
takes it from the nearest class that declares it. -/
theorem resolve_eq_some_iff_takes
    (favoursIn : Favours (scope.prefers query.types) valid (isExact types))
    (favoursAlong : Favours scope.displaces valid (isExact types))
    (allValid : ∀ id, scope.Searches start id → ∀ candidate,
      scope.Accepted query id candidate → valid candidate)
    {height : Nat}
    (nearest : FirstOf (scope.searched start) (scope.Declares query types) height id) :
    scope.resolve query start = some found ↔ scope.Takes query types id found := by
  have visited : scope.Searches start id := ⟨height, nearest.reached⟩
  rw [← candidateIn_eq_some_iff_takes favoursIn (allValid id visited) nearest.holds]
  obtain ⟨kept, represents, exact⟩ :=
    (declares_iff_exists_representative favoursIn (allValid id visited)).mp nearest.holds
  have first : (scope.representatives query start).find? (isExact types) = some kept := by
    rw [← firstIn_iff_find?, representatives, firstIn_filterMap]
    refine ⟨id, represents, firstIn_chain_iff.mpr ⟨height, nearest.congr ?_⟩⟩
    intro lower passed reached
    exact declares_iff_exists_representative favoursIn (allValid passed ⟨lower, reached⟩)
  have present : (scope.representatives query start).filter (isExact types) ≠ [] := by
    intro nothing
    rw [← List.head?_filter, nothing] at first
    cases first
  rw [resolve_eq_champion?, favoursAlong.champion?_eq _ present, champion?_of_unbeaten,
    List.head?_filter, first, represents]
  · intro farther fartherMember nearer nearerMember
    exact not_moreSpecific_among_exact (List.mem_filter.mp fartherMember).2
      (List.mem_filter.mp nearerMember).2
  · intro representative member
    obtain ⟨level, visitedLevel, keeps⟩ := List.mem_filterMap.mp member
    exact allValid level (mem_chain_iff.mp visitedLevel) representative (candidateIn_accepted keeps)

end Scope

end MemberDispatch
