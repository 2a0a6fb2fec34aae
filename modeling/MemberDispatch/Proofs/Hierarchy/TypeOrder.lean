import MemberDispatch.Proofs.Hierarchy.Ancestry
import MemberDispatch.Proofs.Store.Reachable

/-!
# Types ordered by assignability

On a well-formed hierarchy assignability is a partial order on all types: the
primitive kinds and `void` are comparable to themselves alone, classes by
ancestry, arrays by their components and below the three array supertypes.
Where the hierarchy is cyclic it is still a preorder, as long as nothing lies
above these three.
-/

set_option autoImplicit false

namespace MemberDispatch

namespace Store

open Relation

variable {store : Store}

/-- Nothing lies above the three classes that arrays are instances of. -/
def BareTops (store : Store) : Prop :=
  ∀ id ∈ arraySupertypes, store.Bare id

theorem bareTops (object : store.Bare .object) (cloneable : store.Bare .cloneable)
    (serializable : store.Bare .serializable) : store.BareTops := by
  intro id top
  simp only [arraySupertypes, List.mem_cons, List.not_mem_nil, or_false] at top
  rcases top with rfl | rfl | rfl
  · exact object
  · exact cloneable
  · exact serializable

theorem BareTops.object (tops : store.BareTops) : store.Bare .object :=
  tops .object (by decide)

theorem WellFormed.bareTops (wellFormed : store.WellFormed) : store.BareTops :=
  Store.bareTops wellFormed.object wellFormed.cloneable wellFormed.serializable

/-! ## One type against another -/

theorem isAssignable_void (store : Store) (source : Ty) :
    store.isAssignable .void source = decide (.void = source) := rfl

theorem isAssignable_primitive (store : Store) (kind : Primitive) (source : Ty) :
    store.isAssignable (.primitive kind) source = decide (.primitive kind = source) := rfl

theorem isAssignable_ofClass_ofClass (store : Store) (target source : ClassId) :
    store.isAssignable (.ofClass target) (.ofClass source) =
      (decide (target = source) || store.isSubclass source target) := rfl

theorem isAssignable_ofClass_array (store : Store) (target : ClassId) (component : Ty) :
    store.isAssignable (.ofClass target) (.array component) =
      arraySupertypes.contains target := rfl

theorem isAssignable_array_array (store : Store) (target component : Ty) :
    store.isAssignable (.array target) (.array component) =
      (decide (target = component) ||
        target.isReference && component.isReference && store.isAssignable target component) := rfl

@[simp] theorem isAssignable_refl (store : Store) (type : Ty) :
    store.isAssignable type type = true := by
  cases type with
  | void => simp [isAssignable_void]
  | primitive kind => simp [isAssignable_primitive]
  | ofClass id => simp [isAssignable_ofClass_ofClass]
  | array component => simp [isAssignable_array_array]

theorem isAssignable_classes {target source : ClassId} :
    store.isAssignable (.ofClass target) (.ofClass source) = store.isSubclass source target := by
  by_cases same : target = source
  · subst same
    simp [isSubclass_refl]
  · simp [isAssignable_ofClass_ofClass, same]

theorem isAssignable_class_iff {target : ClassId} {source : Ty} :
    store.isAssignable (.ofClass target) source = true ↔
      (∃ id, source = .ofClass id ∧ store.isSubclass id target = true) ∨
        (∃ component, source = .array component) ∧ target ∈ arraySupertypes := by
  cases source with
  | ofClass id => simp [isAssignable_classes]
  | array component => simp [isAssignable_ofClass_array]
  | void => exact iff_of_false Bool.false_ne_true (by simp)
  | primitive kind => exact iff_of_false Bool.false_ne_true (by simp)

theorem isAssignable_array_iff {target source : Ty} :
    store.isAssignable (.array target) source = true ↔
      ∃ component, source = .array component ∧
        (target = component ∨
          target.isReference = true ∧ component.isReference = true ∧
            store.isAssignable target component = true) := by
  cases source with
  | array component => simp [isAssignable_array_array, and_assoc]
  | _ => exact iff_of_false Bool.false_ne_true (by simp)

/-- A type that is no reference takes no other type. -/
theorem isAssignable_value_iff {target source : Ty} (value : target.isReference = false) :
    store.isAssignable target source = true ↔ source = target := by
  cases target with
  | ofClass id => simp [Ty.isReference] at value
  | array component => simp [Ty.isReference] at value
  | void => simp [isAssignable_void, eq_comm]
  | primitive kind => simp [isAssignable_primitive, eq_comm]

theorem isSubclass_of_arraySupertype (tops : store.BareTops) {id sup : ClassId}
    (top : id ∈ arraySupertypes) (above : store.isSubclass id sup = true) :
    sup ∈ arraySupertypes := by
  rcases isSubclass_of_bare (tops id top) above with root | same
  · simp [root, arraySupertypes]
  · exact same ▸ top

/-- What takes an ancestor takes the class.  No class takes the place of a
primitive kind or an array, so that nothing is asked of the tops of the hierarchy. -/
theorem isAssignable_of_path {target : Ty} {sub mid : ClassId}
    (path : ReflTransGen store.DirectSupertype sub mid)
    (above : store.isAssignable target (.ofClass mid) = true) :
    store.isAssignable target (.ofClass sub) = true := by
  cases target with
  | void => cases (isAssignable_value_iff rfl).mp above
  | primitive kind => cases (isAssignable_value_iff rfl).mp above
  | array component =>
      obtain ⟨_, impossible, _⟩ := isAssignable_array_iff.mp above
      cases impossible
  | ofClass sup =>
      rw [isAssignable_classes] at above ⊢
      exact isSubclass_of_path_of_isSubclass path above

theorem isAssignable_trans (tops : store.BareTops) {upper middle lower : Ty}
    (above : store.isAssignable upper middle = true)
    (below : store.isAssignable middle lower = true) :
    store.isAssignable upper lower = true := by
  induction upper generalizing middle lower with
  | void =>
      rw [isAssignable_value_iff rfl] at above
      exact above ▸ below
  | primitive kind =>
      rw [isAssignable_value_iff rfl] at above
      exact above ▸ below
  | ofClass sup =>
      rcases isAssignable_class_iff.mp above with ⟨mid, rfl, aboveMid⟩ | ⟨⟨component, rfl⟩, top⟩
      · rcases isAssignable_class_iff.mp below with ⟨sub, rfl, belowMid⟩ | ⟨arrays, top⟩
        · exact isAssignable_class_iff.mpr
            (.inl ⟨sub, rfl, isSubclass_trans tops.object belowMid aboveMid⟩)
        · exact isAssignable_class_iff.mpr
            (.inr ⟨arrays, isSubclass_of_arraySupertype tops top aboveMid⟩)
      · obtain ⟨lowest, rfl, _⟩ := isAssignable_array_iff.mp below
        exact isAssignable_class_iff.mpr (.inr ⟨⟨lowest, rfl⟩, top⟩)
  | array target ih =>
      obtain ⟨mid, rfl, aboveMid⟩ := isAssignable_array_iff.mp above
      obtain ⟨low, rfl, belowMid⟩ := isAssignable_array_iff.mp below
      rcases aboveMid with rfl | ⟨targetReference, _, aboveMid⟩
      · exact below
      · rcases belowMid with rfl | ⟨_, lowReference, belowMid⟩
        · exact above
        · exact isAssignable_array_iff.mpr
            ⟨low, rfl, .inr ⟨targetReference, lowReference, ih aboveMid belowMid⟩⟩

theorem isAssignable_antisymm (acyclic : store.Acyclic) (object : store.Bare .object)
    {first second : Ty} (down : store.isAssignable first second = true)
    (up : store.isAssignable second first = true) : first = second := by
  induction first generalizing second with
  | void => exact ((isAssignable_value_iff rfl).mp down).symm
  | primitive kind => exact ((isAssignable_value_iff rfl).mp down).symm
  | ofClass id =>
      rcases isAssignable_class_iff.mp down with ⟨other, rfl, below⟩ | ⟨⟨component, rfl⟩, _⟩
      · rw [isAssignable_classes] at up
        rw [isSubclass_antisymm acyclic object up below]
      · obtain ⟨_, impossible, _⟩ := isAssignable_array_iff.mp up
        cases impossible
  | array component ih =>
      obtain ⟨other, rfl, below⟩ := isAssignable_array_iff.mp down
      obtain ⟨same, sameEq, above⟩ := isAssignable_array_iff.mp up
      cases sameEq
      rcases below with rfl | ⟨_, _, below⟩
      · rfl
      · rcases above with rfl | ⟨_, _, above⟩
        · rfl
        · rw [ih below above]

/-- Where the root and the two interfaces of arrays declare no supertypes,
assignability is a preorder on all types, and a partial order as soon as the
hierarchy has no cycle. -/
theorem isAssignable_partialOrder (object : store.Bare .object)
    (cloneable : store.Bare .cloneable) (serializable : store.Bare .serializable) :
    (∀ type, store.isAssignable type type = true) ∧
      (∀ upper middle lower, store.isAssignable upper middle = true →
        store.isAssignable middle lower = true → store.isAssignable upper lower = true) ∧
      (store.Acyclic → ∀ first second, store.isAssignable first second = true →
        store.isAssignable second first = true → first = second) := by
  refine ⟨isAssignable_refl store, ?_, ?_⟩
  · intro upper middle lower above below
    exact isAssignable_trans (bareTops object cloneable serializable) above below
  · intro acyclic first second down up
    exact isAssignable_antisymm acyclic object down up

end Store

/-! ## On the small hierarchy -/

namespace Gallery

theorem store_wellFormed : store.WellFormed :=
  Store.Descending.wellFormed (by decide +kernel)

def discGrid : Ty := .array (.array (.ofClass disc))

/-- Rows of discs are cloneable, and so a grid of discs is an array of objects;
nothing but the grid's own type is above and below it. -/
theorem discGrid_ordered :
    (store.Bare .object ∧ store.Bare .cloneable ∧ store.Bare .serializable ∧ store.Acyclic) ∧
      store.isAssignable (.array (.ofClass .cloneable)) discGrid = true ∧
      store.isAssignable (.array (.ofClass .object)) (.array (.ofClass .cloneable)) = true ∧
      store.isAssignable (.array (.ofClass .object)) discGrid = true ∧
      ∀ type, store.isAssignable type discGrid = true →
        store.isAssignable discGrid type = true → type = discGrid := by
  obtain ⟨acyclic, object, cloneable, serializable⟩ := store_wellFormed
  obtain ⟨-, trans, antisymm⟩ := Store.isAssignable_partialOrder object cloneable serializable
  obtain ⟨rows, objects⟩ : store.isAssignable (.array (.ofClass .cloneable)) discGrid = true ∧
      store.isAssignable (.array (.ofClass .object)) (.array (.ofClass .cloneable)) = true := by
    decide +kernel
  exact ⟨⟨object, cloneable, serializable, acyclic⟩, rows, objects, trans _ _ _ objects rows,
    fun type => antisymm acyclic type discGrid⟩

end Gallery

end MemberDispatch
