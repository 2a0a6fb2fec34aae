import MemberDispatch.Proofs.Hierarchy.Ascent
import MemberDispatch.Proofs.Invoke.Override
import MemberDispatch.Proofs.Store.Changes

/-!
# The nearest override

The member that runs for a receiver, said without the walk that looks for it:
the classes of the superclass line are named by their height above the
receiver's class, and an override counts as long as no class up to it is the one
that declares the called member.  The walk is cut at a fixed height.  Below it
the nearest override runs; an override that is nearest but stands higher is not
found, whatever the store.
-/

set_option autoImplicit false

namespace MemberDispatch

/-- An element is kept together with all before it. -/
theorem getElem?_takeWhile {α : Type} {keeps : α → Bool} {elements : List α} {position : Nat}
    {kept : α} :
    (elements.takeWhile keeps)[position]? = some kept ↔
      elements[position]? = some kept ∧
        ∀ lower ≤ position, ∀ passed, elements[lower]? = some passed → keeps passed = true := by
  induction elements generalizing position with
  | nil => simp
  | cons head rest ih =>
      rw [List.takeWhile_cons]
      cases headKept : keeps head with
      | false =>
          simp only [Bool.false_eq_true, if_false, List.getElem?_nil]
          constructor
          · intro absent
            cases absent
          · rintro ⟨-, all⟩
            rw [all 0 (Nat.zero_le position) head rfl] at headKept
            cases headKept
      | true =>
          rw [if_pos rfl]
          cases position with
          | zero =>
              simp only [List.getElem?_cons_zero, Nat.le_zero, forall_eq]
              constructor
              · rintro ⟨⟩
                exact ⟨rfl, by rintro passed ⟨⟩; exact headKept⟩
              · exact And.left
          | succ position =>
              rw [List.getElem?_cons_succ, List.getElem?_cons_succ, ih]
              refine and_congr_right fun _ => ⟨?_, ?_⟩
              · intro all lower below passed reached
                cases lower with
                | zero =>
                    obtain rfl : head = passed := by simpa using reached
                    exact headKept
                | succ lower => exact all lower (by omega) passed (by simpa using reached)
              · intro all lower below passed reached
                exact all (lower + 1) (by omega) passed (by simpa using reached)

/-! ## Overrides by height -/

namespace Store

variable {store : Store} {receiver id : ClassId} {member other : Member} {height : Nat}

/-- A member that runs in the place of another wherever it is met first. -/
structure Replaces (member other : Member) : Prop where
  onInstances : other.isStatic = false
  inherited : other.isPrivate = false
  named : other.name = member.name
  params : other.params = member.params

/-- The class that so many superclasses lead to. -/
def superclassAt (store : Store) (receiver : ClassId) : Nat → Option ClassId :=
  ascent store.superclass? receiver

/-- The nearest override, which the first class that declares one declares
first.  Up to there the class that declares the called member is not met. -/
structure OverriddenAt (store : Store) (receiver : ClassId) (member : Member) (height : Nat)
    (other : Member) : Prop where
  nearest : ∃ id,
    FirstOf (store.superclassAt receiver)
      (fun id => ∃ other ∈ store.members id, Replaces member other) height id ∧
    FirstIn (Replaces member) (store.members id) other
  below : ∀ lower ≤ height, store.superclassAt receiver lower ≠ some member.declaringClass

theorem overrideIn?_eq_some_iff :
    store.overrideIn? member id = some other ↔
      FirstIn (Replaces member) (store.members id) other := by
  have same : (fun other : Member => (!other.isStatic && !other.isPrivate &&
      decide (other.name = member.name) && decide (other.params = member.params)) = true) =
      Replaces member := by
    funext other
    simp only [Bool.and_eq_true, Bool.not_eq_true', decide_eq_true_eq, eq_iff_iff]
    exact ⟨fun ⟨⟨⟨static, closed⟩, named⟩, params⟩ => ⟨static, closed, named, params⟩,
      fun replaces => ⟨⟨⟨replaces.onInstances, replaces.inherited⟩, replaces.named⟩,
        replaces.params⟩⟩
  rw [overrideIn?, ← same, firstIn_iff_find?]

theorem exists_overrideIn?_iff :
    (∃ other, store.overrideIn? member id = some other) ↔
      ∃ other ∈ store.members id, Replaces member other := by
  constructor
  · rintro ⟨other, found⟩
    have first := overrideIn?_eq_some_iff.mp found
    exact ⟨other, first.mem, first.holds⟩
  · rintro ⟨other, declared, replaces⟩
    obtain ⟨position, reached⟩ := List.mem_iff_getElem?.mp declared
    obtain ⟨least, first, found⟩ : ∃ least first,
        FirstOf (fun index => (store.members id)[index]?) (Replaces member) least first :=
      exists_firstOf reached replaces
    exact ⟨first, overrideIn?_eq_some_iff.mpr ⟨least, found⟩⟩

/-- The classes that are searched are the lowest ones, up to the bound and to
the class that declares the called member. -/
theorem getElem?_overridingClasses :
    (store.overridingClasses receiver member)[height]? = some id ↔
      height < overrideBound ∧ store.superclassAt receiver height = some id ∧
        ∀ lower ≤ height, store.superclassAt receiver lower ≠ some member.declaringClass := by
  rw [overridingClasses, getElem?_takeWhile, getElem?_walk]
  by_cases inBound : height < overrideBound
  · rw [if_pos inBound]
    refine ⟨?_, ?_⟩
    · rintro ⟨reached, kept⟩
      refine ⟨inBound, reached, ?_⟩
      intro lower below met
      have walked : (walk store.superclass? overrideBound receiver)[lower]? =
          some member.declaringClass := by
        rw [getElem?_walk, if_pos (by omega)]
        exact met
      simpa using kept lower below member.declaringClass walked
    · rintro ⟨-, reached, apart⟩
      refine ⟨reached, ?_⟩
      intro lower below passed walked
      rw [getElem?_walk, if_pos (by omega)] at walked
      have differs : passed ≠ member.declaringClass :=
        fun same => apart lower below (same ▸ walked)
      simpa using differs
  · simp [inBound]

/-! ## The member that runs -/

theorem findSome?_overrideIn?_iff :
    (store.overridingClasses receiver member).findSome? (store.overrideIn? member) = some other ↔
      ∃ height < overrideBound, store.OverriddenAt receiver member height other := by
  rw [← firstIn_iff_findSome?]
  simp only [exists_overrideIn?_iff]
  simp only [overrideIn?_eq_some_iff]
  constructor
  · rintro ⟨id, declared, height, first⟩
    obtain ⟨inBound, reached, apart⟩ := getElem?_overridingClasses.mp first.reached
    refine ⟨height, inBound, ⟨id, ⟨reached, first.holds, ?_⟩, declared⟩, apart⟩
    intro lower less passed climbed
    refine first.first lower less passed (getElem?_overridingClasses.mpr ⟨by omega, climbed, ?_⟩)
    intro lowest below
    exact apart lowest (by omega)
  · rintro ⟨height, inBound, ⟨id, first, declared⟩, apart⟩
    refine ⟨id, declared, height, ?_, first.holds, ?_⟩
    · exact getElem?_overridingClasses.mpr ⟨inBound, first.reached, apart⟩
    · intro lower less passed searched
      exact first.first lower less passed (getElem?_overridingClasses.mp searched).2.1

theorem OverriddenAt.unique {lower : Nat} {rival : Member}
    (overridden : store.OverriddenAt receiver member height other)
    (again : store.OverriddenAt receiver member lower rival) :
    height = lower ∧ other = rival := by
  obtain ⟨id, first, declared⟩ := overridden.nearest
  obtain ⟨id', first', declared'⟩ := again.nearest
  obtain ⟨sameHeight, rfl⟩ := first.unique first'
  exact ⟨sameHeight, declared.unique declared'⟩

theorem OverriddenAt.replaces (overridden : store.OverriddenAt receiver member height other) :
    Replaces member other := by
  obtain ⟨id, first, declared⟩ := overridden.nearest
  exact declared.holds

/-- An override is looked for among the lowest classes only. -/
theorem OverriddenAt.selectOverride_eq (inherited : member.isPrivate = false)
    (overridden : store.OverriddenAt receiver member height other) :
    store.selectOverride receiver member = if height < overrideBound then other else member := by
  rw [selectOverride, if_neg (by simp [inherited])]
  by_cases inBound : height < overrideBound
  · rw [if_pos inBound, findSome?_overrideIn?_iff.mpr ⟨height, inBound, overridden⟩]
    rfl
  · rw [if_neg inBound]
    cases found :
        (store.overridingClasses receiver member).findSome? (store.overrideIn? member) with
    | none => rfl
    | some rival =>
        obtain ⟨lower, less, nearer⟩ := findSome?_overrideIn?_iff.mp found
        exact absurd ((overridden.unique nearer).1 ▸ less) inBound

theorem selectOverride_of_not_overridden
    (alone : ∀ height other, ¬ store.OverriddenAt receiver member height other) :
    store.selectOverride receiver member = member := by
  rw [selectOverride]
  split
  · rfl
  · cases found :
        (store.overridingClasses receiver member).findSome? (store.overrideIn? member) with
    | none => rfl
    | some rival =>
        obtain ⟨lower, _, overridden⟩ := findSome?_overrideIn?_iff.mp found
        exact absurd overridden (alone lower rival)

theorem Replaces.congr (replaces : Replaces member other) : Replaces other = Replaces member := by
  funext rival
  rw [eq_iff_iff]
  constructor
  · intro below
    exact ⟨below.onInstances, below.inherited, below.named.trans replaces.named,
      below.params.trans replaces.params⟩
  · intro below
    exact ⟨below.onInstances, below.inherited, below.named.trans replaces.named.symm,
      below.params.trans replaces.params.symm⟩

/-- The override has no override of its own: what would override it overrides
the called member, and is not nearer. -/
theorem OverriddenAt.eq_of_overriddenAt {higher : Nat} {rival : Member}
    (overridden : store.OverriddenAt receiver member height other)
    (again : store.OverriddenAt receiver other higher rival) : rival = other := by
  have same := overridden.replaces.congr
  obtain ⟨id, first, declared⟩ := overridden.nearest
  obtain ⟨id', first', declared'⟩ := again.nearest
  rw [same] at declared'
  simp only [same] at first'
  obtain ⟨-, rfl⟩ := first.unique first'
  exact declared'.unique declared

theorem OverriddenAt.selectOverride_self
    (overridden : store.OverriddenAt receiver member height other) :
    store.selectOverride receiver other = other := by
  by_cases again : ∃ higher rival, store.OverriddenAt receiver other higher rival
  · obtain ⟨higher, rival, nearest⟩ := again
    obtain rfl := overridden.eq_of_overriddenAt nearest
    rw [nearest.selectOverride_eq overridden.replaces.inherited]
    split
    · rfl
    · rfl
  · exact selectOverride_of_not_overridden fun higher rival nearest =>
      again ⟨higher, rival, nearest⟩

/-- A member that is not private runs itself, or the nearest override if it is
one of the lowest classes that declares it; either runs again when it is called. -/
theorem selectOverride_nearest (store : Store) (receiver : ClassId)
    (inherited : member.isPrivate = false) :
    (∀ height other, store.OverriddenAt receiver member height other →
        store.selectOverride receiver member =
          if height < overrideBound then other else member) ∧
      ((∀ height other, ¬ store.OverriddenAt receiver member height other) →
        store.selectOverride receiver member = member) ∧
      store.selectOverride receiver (store.selectOverride receiver member) =
        store.selectOverride receiver member := by
  refine ⟨fun height other => OverriddenAt.selectOverride_eq inherited,
    selectOverride_of_not_overridden, ?_⟩
  by_cases overridden : ∃ height other, store.OverriddenAt receiver member height other
  · obtain ⟨height, other, nearest⟩ := overridden
    rw [nearest.selectOverride_eq inherited]
    split
    · exact nearest.selectOverride_self
    · rw [nearest.selectOverride_eq inherited, if_neg ‹_›]
  · have alone : ∀ height other, ¬ store.OverriddenAt receiver member height other :=
      fun height other nearest => overridden ⟨height, other, nearest⟩
    rw [selectOverride_of_not_overridden alone, selectOverride_of_not_overridden alone]

end Store

/-! ## A tower

Classes on top of each other.  The lowest declares a member, the one on it
overrides that member, and all others are empty. -/

namespace Tower

open Relation Store

def floor (height : Nat) : ClassId := ⟨26 + height⟩

def below : Nat → ClassId
  | 0 => .object
  | height + 1 => floor height

def ring (answer : String) : MemberDef :=
  { name := "ring", params := [], returns := .ofClass .string, isStatic := false,
    visibility := .publicAccess, body := some (.give (.text answer)) }

def members : Nat → List MemberDef
  | 0 => [ring "ground"]
  | 1 => [ring "landing"]
  | _ => []

def floorClass (height : Nat) : ClassDef :=
  { platformClass (strokes height) (some (below height)) [] with members := members height }

/-- The store once so many floors stand. -/
def store (floors : Nat) : Store := platform.addRow floorClass floors

def called : Member :=
  { ring "ground" with
    serial := (store 0).nextSerial, declaringClass := floor 0, owner := strokes 0, slot := 0 }

def landed : Member :=
  { ring "landing" with
    serial := (store 1).nextSerial, declaringClass := floor 1, owner := strokes 1, slot := 0 }

theorem called_ne_landed : called ≠ landed := by
  intro same
  have sameClass : floor 0 = floor 1 := congrArg Member.declaringClass same
  simp [floor] at sameClass

theorem newRow_floorClass : platform.NewRow floorClass :=
  newRow_of_strokes fun _ => rfl

theorem class?_floor {floors height : Nat} (stands : height < floors) :
    (store floors).class? (floor height) =
      some (record (floor height) (floorClass height) (store height).nextSerial) := by
  have placed := newRow_floorClass.class?_addRow stands
  rwa [size_platform] at placed

theorem superclass?_floor {floors height : Nat} (stands : height < floors) :
    (store floors).superclass? (floor height) = some (below height) := by
  rw [superclass?, class?_floor stands]
  rfl

theorem members_floor {floors height : Nat} (stands : height < floors) :
    (store floors).members (floor height) =
      enroll (floor height) (strokes height) (store height).nextSerial (members height) := by
  rw [Store.members, class?_floor stands]
  rfl

theorem store_reachable (floors : Nat) : (store floors).Reachable :=
  Reachable.platform.addRow floorClass floors

theorem store_acyclic (floors : Nat) : (store floors).Acyclic := by
  refine newRow_floorClass.acyclic_addRow descending_platform ?_ floors
  intro height sup above
  obtain rfl : sup = below height := by simpa [floorClass, platformClass] using above
  rw [size_platform]
  cases height with
  | zero => decide
  | succ height => exact Nat.lt_succ_self (26 + height)

/-- Steps up the superclasses of a floor are steps down the tower. -/
theorem superclassAt_floor {floors height steps : Nat} (stands : height < floors)
    (inside : steps ≤ height) :
    (store floors).superclassAt (floor height) steps = some (floor (height - steps)) := by
  induction steps with
  | zero => rfl
  | succ steps ih =>
      rw [superclassAt] at ih ⊢
      obtain ⟨lower, lowerEq⟩ : ∃ lower, height - steps = lower + 1 :=
        ⟨height - steps - 1, by omega⟩
      rw [ascent_succ, ih (by omega), lowerEq, Option.bind_some,
        superclass?_floor (by omega), below, show height - (steps + 1) = lower by omega]

theorem isSubclass_ground {floors height : Nat} (stands : height < floors) :
    (store floors).isSubclass (floor height) called.declaringClass = true := by
  have climbed := superclassAt_floor stands (Nat.le_refl height)
  rw [Nat.sub_self] at climbed
  exact isSubclass_of_path (ancestor_of_ascent climbed)

/-- The landing is the nearest override of the ground's member, however high up
the receiver is. -/
theorem overriddenAt (height : Nat) :
    (store (height + 2)).OverriddenAt (floor (height + 1)) called height landed := by
  have declared : (store (height + 2)).members (floor 1) = [landed] := by
    rw [members_floor (by omega)]
    simp [enroll, members, landed]
  have landing : FirstIn (Replaces called) ((store (height + 2)).members (floor 1)) landed := by
    rw [declared, firstIn_cons]
    exact .inl ⟨⟨rfl, rfl, rfl, rfl⟩, rfl⟩
  refine ⟨⟨floor 1, ⟨?_, ⟨landed, landing.mem, landing.holds⟩, ?_⟩, landing⟩, ?_⟩
  · rw [superclassAt_floor (by omega) (by omega), Nat.add_sub_cancel_left]
  · -- Everything between the receiver and the landing is empty.
    intro earlier less passed reached
    rw [superclassAt_floor (by omega) (by omega), Option.some.injEq] at reached
    subst reached
    rintro ⟨other, declared, -⟩
    obtain ⟨lower, lowerEq⟩ : ∃ lower, height + 1 - earlier = lower + 2 :=
      ⟨height - earlier - 1, by omega⟩
    rw [members_floor (by omega), lowerEq] at declared
    exact absurd declared List.not_mem_nil
  · -- The ground is met only one step further.
    intro lower within met
    rw [superclassAt_floor (by omega) (by omega), Option.some.injEq] at met
    have same : 26 + (height + 1 - lower) = 26 + 0 := congrArg ClassId.index met
    omega

/-- The landing is found from as high up as the search goes, and runs again when
it is called itself; on the ground nothing overrides the member. -/
theorem selectOverride_within_bound :
    called.isPrivate = false ∧
      (store 257).OverriddenAt (floor 256) called 255 landed ∧
      (store 257).selectOverride (floor 256) called = landed ∧
      (store 257).selectOverride (floor 256) landed = landed ∧
      (store 257).selectOverride (floor 0) called = called := by
  have inherited : called.isPrivate = false := rfl
  have overridden := overriddenAt 255
  obtain ⟨nearest, -, again⟩ := selectOverride_nearest (store 257) (floor 256) inherited
  obtain ⟨-, alone, -⟩ := selectOverride_nearest (store 257) (floor 0) inherited
  have selected : (store 257).selectOverride (floor 256) called = landed := by
    rw [nearest 255 landed overridden]
    exact if_pos (by decide)
  refine ⟨inherited, overridden, selected, ?_, ?_⟩
  · rw [← selected, again]
  · apply alone
    intro height other found
    exact found.below 0 (Nat.zero_le height) rfl

/-- One floor higher the landing is out of reach, and the member that it
overrides runs in its place. -/
theorem selectOverride_beyond_bound :
    (store 258).Reachable ∧ (store 258).Acyclic ∧
      called.isStatic = false ∧ called.isPrivate = false ∧
      (store 258).isSubclass (floor 257) called.declaringClass = true ∧
      (store 258).OverriddenAt (floor 257) called 256 landed ∧
      (store 258).selectOverride (floor 257) called = called ∧ called ≠ landed := by
  have selected := (overriddenAt 256).selectOverride_eq rfl
  rw [if_neg (by decide)] at selected
  exact ⟨store_reachable 258, store_acyclic 258, rfl, rfl, isSubclass_ground (by omega),
    overriddenAt 256, selected, called_ne_landed⟩

end Tower

end MemberDispatch
