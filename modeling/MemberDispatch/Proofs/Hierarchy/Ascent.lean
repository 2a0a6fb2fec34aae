import Mathlib.Data.List.Perm.Subperm
import MemberDispatch.Proofs.Hierarchy.Walk
import MemberDispatch.Scope

/-!
# Heights above a class

Superclass lines may be cyclic, so a place on them is named by its height: the
class that a number of steps leads to.  Searches take the lines as lists that
are cut where they repeat.  Nothing is lost by the cut: the list holds every
class of the line, each at its least height, so that the first class of either
with a property is the same.
-/

set_option autoImplicit false

namespace MemberDispatch

variable {α β : Type}

/-! ## The first place of a sequence -/

/-- An element with a property, before which the sequence has no such element. -/
structure FirstOf (sequence : Nat → Option α) (P : α → Prop) (position : Nat) (found : α) :
    Prop where
  reached : sequence position = some found
  holds : P found
  first : ∀ earlier < position, ∀ passed, sequence earlier = some passed → ¬ P passed

section FirstOf

variable {sequence : Nat → Option α} {P Q : α → Prop} {position other : Nat} {found rival : α}

theorem FirstOf.position_le (first : FirstOf sequence P position found)
    (reached : sequence other = some rival) (holds : P rival) : position ≤ other := by
  by_contra later
  exact first.first other (by omega) rival reached holds

theorem FirstOf.unique (first : FirstOf sequence P position found)
    (again : FirstOf sequence P other rival) : position = other ∧ found = rival := by
  have below := first.position_le again.reached again.holds
  have above := again.position_le first.reached first.holds
  have same : position = other := by omega
  subst same
  exact ⟨rfl, Option.some.inj (first.reached.symm.trans again.reached)⟩

theorem exists_firstOf (reached : sequence other = some rival) (holds : P rival) :
    ∃ position found, FirstOf sequence P position found := by
  induction other using Nat.strongRecOn generalizing rival with
  | ind other earlierFirst =>
      by_cases earlier : ∃ lower < other, ∃ passed, sequence lower = some passed ∧ P passed
      · obtain ⟨lower, less, passed, passedReached, passedHolds⟩ := earlier
        exact earlierFirst lower less passedReached passedHolds
      · refine ⟨other, rival, reached, holds, ?_⟩
        intro lower less passed passedReached passedHolds
        exact earlier ⟨lower, less, passed, passedReached, passedHolds⟩

theorem FirstOf.congr (first : FirstOf sequence P position found)
    (same : ∀ reached id, sequence reached = some id → (P id ↔ Q id)) :
    FirstOf sequence Q position found where
  reached := first.reached
  holds := (same position found first.reached).mp first.holds
  first := by
    intro earlier less passed reached holds
    exact first.first earlier less passed reached ((same earlier passed reached).mpr holds)

end FirstOf

/-! ## The first element of a list -/

/-- The first element of a list with a property. -/
def FirstIn (P : α → Prop) (elements : List α) (found : α) : Prop :=
  ∃ position, FirstOf (fun index => elements[index]?) P position found

section FirstIn

variable {P Q : α → Prop} {found head : α} {elements rest : List α}

theorem FirstIn.holds (first : FirstIn P elements found) : P found :=
  first.choose_spec.holds

theorem FirstIn.mem (first : FirstIn P elements found) : found ∈ elements :=
  List.mem_of_getElem? first.choose_spec.reached

theorem firstIn_nil : ¬ FirstIn P [] found := by
  rintro ⟨position, first⟩
  simpa using first.reached

theorem firstOf_cons {position : Nat} :
    FirstOf (fun index => (head :: rest)[index]?) P position found ↔
      P head ∧ position = 0 ∧ found = head ∨
        ¬ P head ∧ ∃ later, position = later + 1 ∧
          FirstOf (fun index => rest[index]?) P later found := by
  constructor
  · intro first
    cases position with
    | zero =>
        have same : head = found := by simpa using first.reached
        subst same
        exact .inl ⟨first.holds, rfl, rfl⟩
    | succ position =>
        right
        refine ⟨first.first 0 (by omega) head rfl, position, rfl, by simpa using first.reached,
          first.holds, ?_⟩
        intro earlier less passed reached
        exact first.first (earlier + 1) (by omega) passed (by simpa using reached)
  · rintro (⟨holds, rfl, rfl⟩ | ⟨fails, position, rfl, first⟩)
    · exact ⟨rfl, holds, fun earlier less => absurd less (Nat.not_lt_zero earlier)⟩
    · refine ⟨by simpa using first.reached, first.holds, ?_⟩
      intro earlier less passed reached
      cases earlier with
      | zero =>
          have same : head = passed := by simpa using reached
          exact same ▸ fails
      | succ earlier => exact first.first earlier (by omega) passed (by simpa using reached)

theorem firstIn_cons :
    FirstIn P (head :: rest) found ↔ P head ∧ found = head ∨ ¬ P head ∧ FirstIn P rest found := by
  simp only [FirstIn, firstOf_cons]
  constructor
  · rintro ⟨position, ⟨holds, -, same⟩ | ⟨fails, later, -, first⟩⟩
    · exact .inl ⟨holds, same⟩
    · exact .inr ⟨fails, later, first⟩
  · rintro (⟨holds, same⟩ | ⟨fails, later, first⟩)
    · exact ⟨0, .inl ⟨holds, rfl, same⟩⟩
    · exact ⟨later + 1, .inr ⟨fails, later, rfl, first⟩⟩

theorem firstIn_iff_find? {test : α → Bool} :
    FirstIn (fun element => test element = true) elements found ↔
      elements.find? test = some found := by
  induction elements with
  | nil => simp [firstIn_nil]
  | cons head rest ih =>
      rw [firstIn_cons, ih]
      cases passes : test head with
      | true => simp [passes, eq_comm]
      | false => simp [passes]

theorem firstIn_iff_append :
    FirstIn P elements found ↔
      P found ∧ ∃ before after, elements = before ++ found :: after ∧
        ∀ passed ∈ before, ¬ P passed := by
  classical
  have tested : FirstIn (fun element => decide (P element) = true) elements found ↔
      elements.find? (fun element => decide (P element)) = some found :=
    firstIn_iff_find?
  simpa [List.find?_eq_some_iff_append] using tested

theorem FirstIn.append (first : FirstIn P elements found) (rest : List α) :
    FirstIn P (elements ++ rest) found := by
  obtain ⟨holds, before, after, split, passed⟩ := firstIn_iff_append.mp first
  exact firstIn_iff_append.mpr ⟨holds, before, after ++ rest, by simp [split], passed⟩

/-- The first image of a list is the image of its first element that has one. -/
theorem firstIn_filterMap {image : α → Option β} {P : β → Prop} {shown : β} :
    FirstIn P (elements.filterMap image) shown ↔
      ∃ element, image element = some shown ∧
        FirstIn (fun element => ∃ shown, image element = some shown ∧ P shown) elements element := by
  induction elements with
  | nil => simp [firstIn_nil]
  | cons head rest ih =>
      simp only [firstIn_cons]
      cases imageEq : image head with
      | none => simp [imageEq, ih]
      | some value =>
          rw [List.filterMap_cons_some imageEq, firstIn_cons, ih]
          by_cases holds : P value
          · simp [holds, imageEq, eq_comm]
          · simp [holds]

theorem firstIn_iff_findSome? {image : α → Option β} {shown : β} :
    (∃ element, image element = some shown ∧
        FirstIn (fun element => ∃ shown, image element = some shown) elements element) ↔
      elements.findSome? image = some shown := by
  induction elements with
  | nil => simp [firstIn_nil]
  | cons head rest ih =>
      simp only [firstIn_cons, List.findSome?_cons]
      cases imageEq : image head with
      | none => simpa [imageEq] using ih
      | some value => simp [imageEq]

theorem FirstIn.unique {rival : α} (first : FirstIn P elements found)
    (again : FirstIn P elements rival) : found = rival :=
  (first.choose_spec.unique again.choose_spec).2

end FirstIn

/-! ## Heights -/

/-- The element that a number of steps leads to. -/
def ascent (step : α → Option α) : α → Nat → Option α
  | start, 0 => some start
  | start, height + 1 => (step start).bind fun next => ascent step next height

section Ascent

variable {step : α → Option α} {start here next found : α} {bound height : Nat}

theorem ascent_succ : ascent step start (height + 1) = (ascent step start height).bind step := by
  induction height generalizing start with
  | zero => cases stepEq : step start <;> simp [ascent, stepEq]
  | succ height ih =>
      rw [ascent]
      cases stepEq : step start with
      | none => simp [ascent, stepEq]
      | some next =>
          rw [Option.bind_some, ih]
          simp [ascent, stepEq]

theorem getElem?_walk : (walk step bound start)[height]? =
    if height < bound then ascent step start height else none := by
  induction bound generalizing start height with
  | zero => simp [walk]
  | succ bound ih =>
      rw [walk]
      cases height with
      | zero => simp [ascent]
      | succ height =>
          rw [List.getElem?_cons_succ, ascent]
          cases stepEq : step start with
          | none => simp
          | some next => simp [ih]

/-! ## Walks cut where they repeat -/

variable [DecidableEq α] {places : List α}

theorem beforeRepeat_nodup (seen elements : List α) :
    (beforeRepeat seen elements).Nodup ∧ ∀ kept ∈ beforeRepeat seen elements, kept ∉ seen := by
  induction elements generalizing seen with
  | nil => simp [beforeRepeat]
  | cons head rest ih =>
      rw [beforeRepeat]
      split
      · simp
      · rename_i fresh
        have unseen : head ∉ seen := by simpa using fresh
        obtain ⟨distinct, apart⟩ := ih (head :: seen)
        constructor
        · refine List.nodup_cons.mpr ⟨?_, distinct⟩
          intro again
          exact apart head again List.mem_cons_self
        · intro kept member
          rcases List.mem_cons.mp member with rfl | later
          · exact unseen
          · exact fun old => apart kept later (List.mem_cons_of_mem head old)

/-- What follows the cut starts with a repetition. -/
theorem exists_beforeRepeat_append (seen elements : List α) :
    ∃ rest, elements = beforeRepeat seen elements ++ rest ∧
      ∀ again ∈ rest.head?, again ∈ seen ∨ again ∈ beforeRepeat seen elements := by
  induction elements generalizing seen with
  | nil => exact ⟨[], by simp [beforeRepeat]⟩
  | cons head tail ih =>
      rw [beforeRepeat]
      split
      · rename_i old
        refine ⟨head :: tail, rfl, ?_⟩
        intro again same
        obtain rfl : head = again := by simpa using same
        exact .inl (by simpa using old)
      · obtain ⟨rest, whole, repeats⟩ := ih (head :: seen)
        refine ⟨rest, by rw [List.cons_append, ← whole], ?_⟩
        intro again same
        rcases repeats again same with old | kept
        · rcases List.mem_cons.mp old with rfl | old
          · exact .inr List.mem_cons_self
          · exact .inl old
        · exact .inr (List.mem_cons_of_mem head kept)

/-- A walk as far as it repeats nothing. -/
def lineOf (step : α → Option α) (bound : Nat) (start : α) : List α :=
  beforeRepeat [] (walk step bound start)

theorem exists_lineOf_append (step : α → Option α) (bound : Nat) (start : α) :
    ∃ rest, walk step bound start = lineOf step bound start ++ rest ∧
      ∀ again ∈ rest.head?, again ∈ lineOf step bound start := by
  obtain ⟨rest, whole, repeats⟩ := exists_beforeRepeat_append [] (walk step bound start)
  exact ⟨rest, whole, fun again same => (repeats again same).resolve_left List.not_mem_nil⟩

theorem ascent_of_getElem?_lineOf (reached : (lineOf step bound start)[height]? = some found) :
    ascent step start height = some found := by
  obtain ⟨rest, whole, -⟩ := exists_lineOf_append step bound start
  have walked : (walk step bound start)[height]? = some found := by
    rw [whole, List.getElem?_append_left]
    · exact reached
    · exact (List.getElem?_eq_some_iff.mp reached).choose
  rw [getElem?_walk] at walked
  split at walked
  · exact walked
  · cases walked

/-- The places that a line leaves are distinct, so that the bound is not met
before all of them are used up. -/
theorem succ_lt_bound_of_step (stays : ∀ here next, step here = some next → here ∈ places)
    (enough : places.length < bound) (reached : (lineOf step bound start)[height]? = some here)
    (leaves : step here = some next) : height + 1 < bound := by
  have inLine : height < (lineOf step bound start).length :=
    (List.getElem?_eq_some_iff.mp reached).choose
  have leavesAll : ∀ visited ∈ (lineOf step bound start).take (height + 1), visited ∈ places := by
    intro visited member
    obtain ⟨lower, lowerReached⟩ := List.mem_iff_getElem?.mp member
    rw [List.getElem?_take] at lowerReached
    split at lowerReached
    · by_cases top : lower = height
      · subst top
        rw [reached, Option.some.injEq] at lowerReached
        exact lowerReached ▸ stays here next leaves
      · have above : lower + 1 < (lineOf step bound start).length := by omega
        have beyond := ascent_of_getElem?_lineOf (List.getElem?_eq_getElem above)
        rw [ascent_succ, ascent_of_getElem?_lineOf lowerReached, Option.bind_some] at beyond
        exact stays visited _ beyond
    · cases lowerReached
  have distinct : ((lineOf step bound start).take (height + 1)).Nodup :=
    (beforeRepeat_nodup [] _).1.sublist (List.take_sublist _ _)
  have few := (List.subperm_of_subset distinct leavesAll).length_le
  rw [List.length_take] at few
  omega

/-- A line is closed under its step if it may be longer than the list of all
places that a step leaves. -/
theorem mem_lineOf_of_step (stays : ∀ here next, step here = some next → here ∈ places)
    (enough : places.length < bound) (member : here ∈ lineOf step bound start)
    (leaves : step here = some next) : next ∈ lineOf step bound start := by
  obtain ⟨rest, whole, repeats⟩ := exists_lineOf_append step bound start
  obtain ⟨height, reached⟩ := List.mem_iff_getElem?.mp member
  have walked : (walk step bound start)[height + 1]? = some next := by
    rw [getElem?_walk, if_pos (succ_lt_bound_of_step stays enough reached leaves), ascent_succ,
      ascent_of_getElem?_lineOf reached, Option.bind_some, leaves]
  by_cases inside : height + 1 < (lineOf step bound start).length
  · rw [whole, List.getElem?_append_left inside] at walked
    exact List.mem_of_getElem? walked
  · have inLine : height < (lineOf step bound start).length :=
      (List.getElem?_eq_some_iff.mp reached).choose
    have outside : (lineOf step bound start).length = height + 1 := by omega
    rw [whole, List.getElem?_append_right (by omega), outside, Nat.sub_self,
      ← List.head?_eq_getElem?] at walked
    exact repeats next walked

theorem mem_lineOf_iff (stays : ∀ here next, step here = some next → here ∈ places)
    (enough : places.length < bound) :
    found ∈ lineOf step bound start ↔ ∃ height, ascent step start height = some found := by
  constructor
  · intro member
    obtain ⟨height, reached⟩ := List.mem_iff_getElem?.mp member
    exact ⟨height, ascent_of_getElem?_lineOf reached⟩
  · rintro ⟨height, climbed⟩
    induction height generalizing found with
    | zero =>
        obtain rfl : start = found := by simpa [ascent] using climbed
        cases bound with
        | zero => omega
        | succ bound => simp [lineOf, walk, beforeRepeat]
    | succ height ih =>
        rw [ascent_succ] at climbed
        obtain ⟨here, reached, leaves⟩ := Option.bind_eq_some_iff.mp climbed
        exact mem_lineOf_of_step stays enough (ih reached) leaves

/-- The first place of a line with a property is the lowest one. -/
theorem firstIn_lineOf_iff (stays : ∀ here next, step here = some next → here ∈ places)
    (enough : places.length < bound) {P : α → Prop} :
    FirstIn P (lineOf step bound start) found ↔
      ∃ height, FirstOf (ascent step start) P height found := by
  have lowest {height : Nat} {found : α}
      (first : FirstOf (fun index => (lineOf step bound start)[index]?) P height found) :
      FirstOf (ascent step start) P height found := by
    refine ⟨ascent_of_getElem?_lineOf first.reached, first.holds, ?_⟩
    intro lower less passed climbed
    have inLine : height < (lineOf step bound start).length :=
      (List.getElem?_eq_some_iff.mp first.reached).choose
    have reached := List.getElem?_eq_getElem (Nat.lt_trans less inLine)
    have same := ascent_of_getElem?_lineOf reached
    rw [climbed, Option.some.injEq] at same
    exact first.first lower less passed (same ▸ reached)
  constructor
  · rintro ⟨height, first⟩
    exact ⟨height, lowest first⟩
  · rintro ⟨height, first⟩
    have member : found ∈ lineOf step bound start :=
      (mem_lineOf_iff stays enough).mpr ⟨height, first.reached⟩
    obtain ⟨index, reached⟩ := List.mem_iff_getElem?.mp member
    obtain ⟨position, rival, listed⟩ : ∃ position rival,
        FirstOf (fun index => (lineOf step bound start)[index]?) P position rival :=
      exists_firstOf reached first.holds
    have same := (first.unique (lowest listed)).2
    exact ⟨position, same ▸ listed⟩

end Ascent

theorem Store.ancestor_of_ascent {store : Store} {start id : ClassId} {height : Nat}
    (climbed : ascent store.superclass? start height = some id) :
    Relation.ReflTransGen store.DirectSupertype start id := by
  have walked : (walk store.superclass? (height + 1) start)[height]? = some id := by
    rw [getElem?_walk, if_pos (Nat.lt_succ_self height)]
    exact climbed
  exact ancestor_of_mem_walk (List.mem_of_getElem? walked)

/-! ## Searched classes -/

/-- The superclass that a search goes on with, unless it is the root. -/
def Store.superclassBelow? (store : Store) (root id : ClassId) : Option ClassId :=
  (store.superclass? id).filter fun superclass => superclass ≠ root

namespace Scope

variable {scope : Scope} {start id : ClassId}

/-- The class that a search from `start` comes to after so many superclasses. -/
def searched (scope : Scope) (start : ClassId) : Nat → Option ClassId :=
  ascent (scope.store.superclassBelow? scope.root) start

def Searches (scope : Scope) (start id : ClassId) : Prop :=
  ∃ height, scope.searched start height = some id

theorem mem_ids_of_superclassBelow? {store : Store} {root here next : ClassId}
    (above : store.superclassBelow? root here = some next) : here ∈ store.ids :=
  Store.mem_ids_of_superclass? (Option.filter_eq_some_iff.mp above).1

theorem length_ids_lt_walkBound (store : Store) : store.ids.length < store.walkBound := by
  simp [Store.ids, Store.walkBound]

theorem mem_chain_iff : id ∈ scope.chain start ↔ scope.Searches start id :=
  mem_lineOf_iff (fun _ _ => mem_ids_of_superclassBelow?) (length_ids_lt_walkBound scope.store)

theorem firstIn_chain_iff {P : ClassId → Prop} :
    FirstIn P (scope.chain start) id ↔ ∃ height, FirstOf (scope.searched start) P height id :=
  firstIn_lineOf_iff (fun _ _ => mem_ids_of_superclassBelow?)
    (length_ids_lt_walkBound scope.store)

end Scope

end MemberDispatch
