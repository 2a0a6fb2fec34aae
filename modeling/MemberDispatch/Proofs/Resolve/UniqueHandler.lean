import MemberDispatch.Proofs.Resolve.Handler
import MemberDispatch.Proofs.Resolve.Specified

/-!
# The handler search is exact

Said without lists of classes and without counting: the nearest searched class
that declares a possible handler decides.  It has to declare one only; the first
two that it declares are reported otherwise, and what lies beyond it is never
looked at.
-/

set_option autoImplicit false

namespace MemberDispatch

section Lists

variable {α : Type} {P : α → Prop} {elements : List α} {found first second : α}

/-- The one element of a list with a property. -/
def OnlyIn (P : α → Prop) (elements : List α) (found : α) : Prop :=
  ∃ before after, elements = before ++ found :: after ∧ (∀ passed ∈ before, ¬ P passed) ∧
    P found ∧ ∀ later ∈ after, ¬ P later

/-- The first two elements of a list with a property. -/
def FirstTwoIn (P : α → Prop) (elements : List α) (first second : α) : Prop :=
  ∃ before after, elements = before ++ first :: after ∧ (∀ passed ∈ before, ¬ P passed) ∧
    P first ∧ FirstIn P after second

theorem onlyIn_iff_filter {test : α → Bool} :
    OnlyIn (fun element => test element = true) elements found ↔
      elements.filter test = [found] := by
  simp only [List.filter_eq_cons_iff, List.filter_eq_nil_iff, OnlyIn]

theorem firstTwoIn_iff_filter {test : α → Bool} :
    FirstTwoIn (fun element => test element = true) elements first second ↔
      ∃ rest, elements.filter test = first :: second :: rest := by
  simp only [FirstTwoIn, firstIn_iff_find?, ← List.head?_filter, List.head?_eq_some_iff,
    List.filter_eq_cons_iff]
  constructor
  · rintro ⟨before, after, split, passed, holds, rest, behind⟩
    exact ⟨rest, before, after, split, passed, holds, behind⟩
  · rintro ⟨rest, before, after, split, passed, holds, behind⟩
    exact ⟨before, after, split, passed, holds, rest, behind⟩

end Lists

/-- A member that may handle what is intercepted. -/
structure Member.Handles (member : Member) : Prop where
  inherited : member.isPrivate = false
  onInstances : member.isStatic = false

namespace Scope

variable {scope : Scope} {start id : ClassId} {member first second : Member}

/-- The class declares a possible handler. -/
def OffersHandler (scope : Scope) (id : ClassId) : Prop :=
  ∃ member ∈ scope.store.members id, member.Handles

theorem handles_eq :
    Member.Handles = fun member => (!member.isPrivate && !member.isStatic) = true := by
  funext member
  simp only [Bool.and_eq_true, Bool.not_eq_true', eq_iff_iff]
  exact ⟨fun handles => ⟨handles.inherited, handles.onInstances⟩,
    fun ⟨inherited, onInstances⟩ => ⟨inherited, onInstances⟩⟩

theorem handlersIn_eq_singleton_iff :
    scope.handlersIn id = [member] ↔ OnlyIn Member.Handles (scope.store.members id) member := by
  rw [handles_eq, onlyIn_iff_filter, handlersIn]

theorem handlersIn_eq_cons_cons_iff :
    (∃ rest, scope.handlersIn id = first :: second :: rest) ↔
      FirstTwoIn Member.Handles (scope.store.members id) first second := by
  rw [handles_eq, firstTwoIn_iff_filter]
  rfl

theorem offersHandler_iff : scope.OffersHandler id ↔ scope.handlersIn id ≠ [] := by
  constructor
  · rintro ⟨member, declared, inherited, onInstances⟩
    exact List.ne_nil_of_mem (mem_handlersIn_iff.mpr ⟨declared, inherited, onInstances⟩)
  · intro some
    obtain ⟨member, handles⟩ := List.exists_mem_of_ne_nil _ some
    obtain ⟨declared, inherited, onInstances⟩ := mem_handlersIn_iff.mp handles
    exact ⟨member, declared, inherited, onInstances⟩

/-! ## The level that decides -/

/-- The nearest searched class with a possible handler. -/
def HandlerLevel (scope : Scope) (start : ClassId) (height : Nat) (id : ClassId) : Prop :=
  FirstOf (scope.searched start) scope.OffersHandler height id

theorem exists_handlerLevel_iff :
    (∃ height, scope.HandlerLevel start height id) ↔
      scope.FirstHandling start id ∧ scope.handlersIn id ≠ [] := by
  simp only [HandlerLevel, ← firstIn_chain_iff, firstIn_iff_append, offersHandler_iff, not_not,
    FirstHandling, and_comm]

theorem handlerLevel?_eq_some_iff_nearest {members : List Member} :
    scope.handlerLevel? start = some (id, members) ↔
      (∃ height, scope.HandlerLevel start height id) ∧ scope.handlersIn id = members := by
  rw [handlerLevel?_eq_some_iff, exists_handlerLevel_iff]
  constructor
  · rintro ⟨first, rfl, some⟩
    exact ⟨⟨first, some⟩, rfl⟩
  · rintro ⟨⟨first, some⟩, rfl⟩
    exact ⟨first, rfl, some⟩

theorem handlerLevel?_eq_none_iff :
    scope.handlerLevel? start = none ↔
      ∀ id, scope.Searches start id → ¬ scope.OffersHandler id := by
  simp only [← mem_chain_iff, offersHandler_iff, not_not, handlerLevel?,
    List.findSome?_eq_none_iff]
  refine forall₂_congr fun id _ => ?_
  cases scope.handlersIn id <;> simp

/-! ## Ends of the search -/

/-- How the search from a class ends. -/
inductive HandlerSearch (scope : Scope) (start : ClassId) :
    Except Fault (ClassId × Member) → Prop where
  | nowhere (none : ∀ id, scope.Searches start id → ¬ scope.OffersHandler id) :
      HandlerSearch scope start (.error .noHandler)
  | only {height : Nat} {id : ClassId} {member : Member}
      (level : scope.HandlerLevel start height id)
      (only : OnlyIn Member.Handles (scope.store.members id) member) :
      HandlerSearch scope start (.ok (id, member))
  | several {height : Nat} {id : ClassId} {first second : Member}
      (level : scope.HandlerLevel start height id)
      (two : FirstTwoIn Member.Handles (scope.store.members id) first second) :
      HandlerSearch scope start (.error (.ambiguousHandler (scope.handlerKind start)
        (scope.signature first) (scope.signature second)))

theorem handlerOf_search (scope : Scope) (start : ClassId) :
    scope.HandlerSearch start (scope.handlerOf start) := by
  rw [handlerOf]
  split
  · rename_i none
    exact .nowhere (handlerLevel?_eq_none_iff.mp none)
  · rename_i id level
    obtain ⟨-, -, some⟩ := handlerLevel?_eq_some_iff.mp level
    exact absurd rfl some
  · rename_i id member level
    obtain ⟨⟨height, nearest⟩, handlers⟩ := handlerLevel?_eq_some_iff_nearest.mp level
    exact .only nearest (handlersIn_eq_singleton_iff.mp handlers)
  · rename_i id first second rest level
    obtain ⟨⟨height, nearest⟩, handlers⟩ := handlerLevel?_eq_some_iff_nearest.mp level
    exact .several nearest (handlersIn_eq_cons_cons_iff.mp ⟨rest, handlers⟩)

theorem HandlerSearch.eq_handlerOf {result : Except Fault (ClassId × Member)}
    (search : scope.HandlerSearch start result) : scope.handlerOf start = result := by
  rw [handlerOf]
  cases search with
  | nowhere none => rw [handlerLevel?_eq_none_iff.mpr none]
  | only level only =>
      rw [handlerLevel?_eq_some_iff_nearest.mpr
        ⟨⟨_, level⟩, handlersIn_eq_singleton_iff.mpr only⟩]
  | several level two =>
      obtain ⟨rest, handlers⟩ := handlersIn_eq_cons_cons_iff.mpr two
      rw [handlerLevel?_eq_some_iff_nearest.mpr ⟨⟨_, level⟩, handlers⟩]

theorem handlerOf_eq_iff {result : Except Fault (ClassId × Member)} :
    scope.handlerOf start = result ↔ scope.HandlerSearch start result := by
  constructor
  · rintro rfl
    exact handlerOf_search scope start
  · exact HandlerSearch.eq_handlerOf

/-! ## Beyond the level -/

/-- Classes beyond the level that decides do not take part in the search. -/
theorem AgreesUpTo.handlerSearch {other : Scope} {height : Nat}
    (agrees : scope.AgreesUpTo other start height)
    (describes : ∀ types, other.describe types = scope.describe types)
    (kind : other.handlerKind start = scope.handlerKind start)
    (level : scope.HandlerLevel start height id)
    {result : Except Fault (ClassId × Member)} (search : scope.HandlerSearch start result) :
    other.HandlerSearch start result := by
  have offers : ∀ lower ≤ height, ∀ id, scope.searched start lower = some id →
      (other.OffersHandler id ↔ scope.OffersHandler id) := by
    intro lower below id reached
    simp only [OffersHandler, agrees.members lower below id reached]
  have top := Nat.le_refl height
  have again : other.HandlerLevel start height id := by
    refine ⟨?_, (offers height top id level.reached).mpr level.holds, ?_⟩
    · rw [agrees.searched height top, level.reached]
    · intro lower less passed reached holds
      have below := Nat.le_of_lt less
      rw [agrees.searched lower below] at reached
      exact level.first lower less passed reached ((offers lower below passed reached).mp holds)
  have sameMembers := agrees.members height top id level.reached
  have sameSignature : ∀ member, other.signature member = scope.signature member := by
    intro member
    rw [signature, signature, describes]
  cases search with
  | nowhere none => exact absurd level.holds (none id ⟨height, level.reached⟩)
  | only nearest only =>
      obtain ⟨-, rfl⟩ := level.unique nearest
      exact .only again (sameMembers ▸ only)
  | several nearest two =>
      obtain ⟨-, rfl⟩ := level.unique nearest
      rw [← kind, ← sameSignature, ← sameSignature]
      exact .several again (sameMembers ▸ two)

/-! ## The handler of a value -/

theorem findHandler_eq_ok_iff_search {handler : Value} (runtime : handler.classId? = some start) :
    scope.findHandler handler = .ok member ↔
      ∃ id, scope.HandlerSearch start (.ok (id, member)) := by
  simp only [findHandler, runtime, ← handlerOf_eq_iff]
  cases scope.handlerOf start with
  | error fault => simp [Except.map]
  | ok found =>
      obtain ⟨id, found⟩ := found
      simp [Except.map]

theorem findHandler_eq_error_iff_search {handler : Value} {fault : Fault}
    (runtime : handler.classId? = some start) :
    scope.findHandler handler = .error fault ↔ scope.HandlerSearch start (.error fault) := by
  simp only [findHandler, runtime, ← handlerOf_eq_iff]
  cases scope.handlerOf start <;> simp [Except.map]

theorem eq_handlerKind_iff {kind : HandlerKind} :
    kind = scope.handlerKind start ↔
      (kind = .delegate ↔ scope.store.isSubclass start scope.delegate = true) := by
  cases above : scope.store.isSubclass start scope.delegate <;> cases kind <;>
    simp [handlerKind, above]

/-- The nearest searched class with a possible handler decides: its only one is
found, or its first two are reported.  Without such a class there is no handler,
and no class beyond it matters. -/
theorem findHandler_exact (scope : Scope) {handler : Value} {start : ClassId}
    (runtime : handler.classId? = some start) :
    (∀ member, scope.findHandler handler = .ok member ↔
        ∃ height id, FirstOf (scope.searched start) scope.OffersHandler height id ∧
          OnlyIn Member.Handles (scope.store.members id) member) ∧
      (∀ kind first second,
        scope.findHandler handler = .error (.ambiguousHandler kind first second) ↔
          (kind = .delegate ↔ scope.store.isSubclass start scope.delegate = true) ∧
            ∃ height id, FirstOf (scope.searched start) scope.OffersHandler height id ∧
              ∃ one other, FirstTwoIn Member.Handles (scope.store.members id) one other ∧
                first = scope.signature one ∧ second = scope.signature other) ∧
      (scope.findHandler handler = .error .noHandler ↔
        ∀ id, scope.Searches start id → ¬ scope.OffersHandler id) ∧
      ∀ height id, FirstOf (scope.searched start) scope.OffersHandler height id →
        ∀ other, scope.AgreesUpTo other start height →
          (∀ types, other.describe types = scope.describe types) →
          other.handlerKind start = scope.handlerKind start →
          other.findHandler handler = scope.findHandler handler := by
  refine ⟨?_, ?_, ?_, ?_⟩
  · intro member
    rw [findHandler_eq_ok_iff_search runtime]
    constructor
    · rintro ⟨id, search⟩
      cases search with
      | only level only => exact ⟨_, id, level, only⟩
    · rintro ⟨height, id, level, only⟩
      exact ⟨id, .only level only⟩
  · intro kind first second
    rw [findHandler_eq_error_iff_search runtime, ← eq_handlerKind_iff]
    constructor
    · intro search
      cases search with
      | several level two => exact ⟨rfl, _, _, level, _, _, two, rfl, rfl⟩
    · rintro ⟨rfl, height, id, level, one, other, two, rfl, rfl⟩
      exact .several level two
  · rw [findHandler_eq_error_iff_search runtime]
    constructor
    · intro search
      cases search with
      | nowhere none => exact none
    · exact .nowhere
  · intro height id level other agrees describes kind
    have search := agrees.handlerSearch describes kind level (handlerOf_search scope start)
    simp only [findHandler, runtime, search.eq_handlerOf]

end Scope

/-! ## A doorman

The porch declares a private and a static member only, so that the hall behind it
decides; the hall declares two members that may handle, and is no delegate, but
the porch is. -/

namespace Doorman

open Store

def hall : ClassId := ⟨26⟩
def porch : ClassId := ⟨27⟩

def operation (name : String) (isStatic : Bool) (visibility : Visibility) : MemberDef :=
  { name, params := [.ofClass .string], returns := .void, isStatic, visibility, body := none }

def classes : List ClassDef :=
  [{ platformClass "Hall" (some .object) [] with
      members := [operation "sweep" false .privateAccess, operation "greet" false .packageAccess,
        operation "build" true .publicAccess, operation "usher" false .publicAccess] },
    { platformClass "Porch" (some hall) [.delegate] with
      members := [operation "lock" false .privateAccess, operation "paint" true .publicAccess] }]

def scope : Scope := .ofStore (platform.addAll classes) []

def doorman : Value := .object ⟨0, porch, none⟩

/-- The doorman of the porch is a delegate with two candidates, the first two that
the nearest class with any declares. -/
theorem doorman_ambiguous :
    doorman.classId? = some porch ∧
      scope.findHandler doorman =
        .error (.ambiguousHandler .delegate "greet(String)" "usher(String)") ∧
      scope.store.isSubclass porch scope.delegate = true ∧
      ∃ height id, FirstOf (scope.searched porch) scope.OffersHandler height id ∧
        ∃ one other, FirstTwoIn Member.Handles (scope.store.members id) one other ∧
          "greet(String)" = scope.signature one ∧ "usher(String)" = scope.signature other := by
  have computed :
      (match scope.findHandler doorman with
        | .ok _ => false
        | .error fault =>
          fault = .ambiguousHandler .delegate "greet(String)" "usher(String)") = true := by
    decide +kernel
  split at computed
  · cases computed
  · rename_i fault found
    obtain rfl := of_decide_eq_true computed
    have runtime : doorman.classId? = some porch := rfl
    obtain ⟨-, several, -, -⟩ := Scope.findHandler_exact scope runtime
    obtain ⟨kind, level⟩ := (several .delegate "greet(String)" "usher(String)").mp found
    exact ⟨runtime, found, kind.mp rfl, level⟩

end Doorman

end MemberDispatch
