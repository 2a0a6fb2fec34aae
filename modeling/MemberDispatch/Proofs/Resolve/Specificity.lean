import Mathlib.Data.List.Forall2
import MemberDispatch.Proofs.Hierarchy.TypeOrder
import MemberDispatch.Resolve.Specificity

/-!
# Specificity of parameter lists

`moreSpecific` walks two lists and remembers whether a position has differed.
It is the strict part of a preorder: `Narrows` compares boxed types position by
position.  On a well-formed hierarchy the preorder identifies exactly the lists
that boxing identifies, so specificity is a strict partial order.  A list that
accepts the types of a query lies above them.
-/

set_option autoImplicit false

namespace MemberDispatch

/-! ## Boxed types -/

/-- Types are equivalent exactly when boxing identifies them. -/
theorem Ty.equivalent_iff {first second : Ty} :
    first.equivalent second = true ↔ first.boxed = second.boxed := by
  cases first with
  | primitive kind =>
      cases second with
      | primitive other => simp [equivalent, boxed, unboxed?, Primitive.wrapper_inj]
      | ofClass id =>
          simpa [equivalent, boxed, unboxed?, ClassId.unboxed?_eq_some_iff] using eq_comm
      | _ => simp [equivalent, boxed, unboxed?]
  | ofClass id =>
      cases second <;> simp [equivalent, boxed, unboxed?, ClassId.unboxed?_eq_some_iff]
  | _ => cases second <;> simp [equivalent, boxed, unboxed?]

theorem Ty.boxed_of_isReference {type : Ty} (reference : type.isReference = true) :
    type.boxed = type := by
  cases type with
  | primitive kind => simp [isReference] at reference
  | _ => rfl

theorem pairwise_iff {α β : Type} {relation : α → β → Bool} {firsts : List α}
    {seconds : List β} :
    pairwise relation firsts seconds = true ↔
      List.Forall₂ (fun first second => relation first second = true) firsts seconds := by
  induction firsts generalizing seconds with
  | nil => cases seconds <;> simp [pairwise]
  | cons first firsts ih => cases seconds <;> simp [pairwise, ih]

theorem pairwise_equivalent_iff {firsts seconds : List Ty} :
    pairwise Ty.equivalent firsts seconds = true ↔
      firsts.map Ty.boxed = seconds.map Ty.boxed := by
  induction firsts generalizing seconds with
  | nil => cases seconds <;> simp [pairwise]
  | cons first firsts ih => cases seconds <;> simp [pairwise, ih, Ty.equivalent_iff]

namespace Store

variable {store : Store}

/-! ## The preorder -/

/-- Position by position, the boxed type of `lower` is assignable to that of
`upper`. -/
def Narrows (store : Store) (lower upper : List Ty) : Prop :=
  List.Forall₂ (fun low high : Ty => store.isAssignable high.boxed low.boxed = true) lower upper

theorem narrows_of_boxed_eq {lower upper : List Ty}
    (same : lower.map Ty.boxed = upper.map Ty.boxed) : store.Narrows lower upper := by
  induction lower generalizing upper with
  | nil =>
      cases upper with
      | nil => exact .nil
      | cons high upper => simp at same
  | cons low lower ih =>
      cases upper with
      | nil => simp at same
      | cons high upper =>
          rw [List.map_cons, List.map_cons, List.cons.injEq] at same
          refine .cons ?_ (ih same.2)
          rw [same.1]
          exact isAssignable_refl store high.boxed

theorem narrows_iff_boxed {lower upper : List Ty} :
    store.Narrows lower upper ↔
      List.Forall₂ (fun low high => store.isAssignable high low = true)
        (lower.map Ty.boxed) (upper.map Ty.boxed) := by
  rw [Narrows, List.forall₂_map_left_iff, List.forall₂_map_right_iff]

/-- Narrowing does not tell lists apart that boxing identifies. -/
theorem Narrows.congr_left {lower other upper : List Ty} (below : store.Narrows lower upper)
    (same : lower.map Ty.boxed = other.map Ty.boxed) : store.Narrows other upper := by
  rw [narrows_iff_boxed] at below ⊢
  exact same ▸ below

theorem Narrows.trans (wellFormed : store.WellFormed) {lower middle upper : List Ty}
    (below : store.Narrows lower middle) (above : store.Narrows middle upper) :
    store.Narrows lower upper := by
  induction below generalizing upper with
  | nil => exact above
  | cons head _ ih =>
      cases above with
      | cons next rest => exact .cons (isAssignable_trans wellFormed.bareTops next head) (ih rest)

/-- Lists that narrow each other differ by boxing alone. -/
theorem Narrows.antisymm (acyclic : store.Acyclic) (object : store.Bare .object)
    {lower upper : List Ty} (below : store.Narrows lower upper)
    (above : store.Narrows upper lower) : lower.map Ty.boxed = upper.map Ty.boxed := by
  induction below with
  | nil => rfl
  | cons head _ ih =>
      cases above with
      | cons back rest =>
          rw [List.map_cons, List.map_cons, ih rest,
            isAssignable_antisymm acyclic object back head]

/-! ## The strict order -/

theorem specificityFrom_iff {differs : Bool} {current previous : List Ty} :
    store.specificityFrom differs current previous = true ↔
      store.Narrows current previous ∧
        (differs = true ∨ current.map Ty.boxed ≠ previous.map Ty.boxed) := by
  induction current generalizing differs previous with
  | nil =>
      cases previous with
      | nil => simp [specificityFrom, Narrows]
      | cons high previous => simp [specificityFrom, Narrows]
  | cons low current ih =>
      cases previous with
      | nil => simp [specificityFrom, Narrows]
      | cons high previous =>
          by_cases same : low.boxed = high.boxed
          · simp [specificityFrom, Narrows, same, ih]
          · simp [specificityFrom, Narrows, same, ih]

/-- Specificity is narrowing between lists that boxing tells apart. -/
theorem moreSpecific_iff {current previous : List Ty} :
    store.moreSpecific current previous = true ↔
      store.Narrows current previous ∧
        current.map Ty.boxed ≠ previous.map Ty.boxed := by
  simp [moreSpecific, specificityFrom_iff]

/-- Boxing alone makes no list more specific. -/
theorem not_moreSpecific_of_boxed_eq {current previous : List Ty}
    (same : current.map Ty.boxed = previous.map Ty.boxed) :
    ¬ store.moreSpecific current previous = true := by
  intro specific
  exact (moreSpecific_iff.mp specific).2 same

theorem moreSpecific_irrefl (types : List Ty) : ¬ store.moreSpecific types types = true :=
  not_moreSpecific_of_boxed_eq rfl

/-- A list below a more specific one is more specific. -/
theorem moreSpecific_of_narrows (wellFormed : store.WellFormed)
    {lower middle upper : List Ty} (specific : store.moreSpecific lower middle = true)
    (above : store.Narrows middle upper) : store.moreSpecific lower upper = true := by
  obtain ⟨below, differs⟩ := moreSpecific_iff.mp specific
  refine moreSpecific_iff.mpr ⟨below.trans wellFormed above, ?_⟩
  intro same
  have back : store.Narrows middle lower :=
    above.trans wellFormed (narrows_of_boxed_eq same.symm)
  exact differs (below.antisymm wellFormed.acyclic wellFormed.object back)

theorem not_moreSpecific_of_narrows (acyclic : store.Acyclic) (object : store.Bare .object)
    {current previous : List Ty} (below : store.Narrows previous current) :
    ¬ store.moreSpecific current previous = true := by
  intro specific
  obtain ⟨narrows, differs⟩ := moreSpecific_iff.mp specific
  exact differs (narrows.antisymm acyclic object below)

/-! ## Acceptance -/

/-- A parameter that accepts a type lies above it once both are boxed. -/
theorem isAssignable_boxed_of_accepts {param argument : Ty}
    (accepted : store.accepts param argument = true) :
    store.isAssignable param.boxed argument.boxed = true := by
  rw [accepts, Bool.or_eq_true] at accepted
  rcases accepted with equivalent | assignable
  · rw [Ty.equivalent_iff.mp equivalent]
    exact isAssignable_refl store argument.boxed
  · cases param with
    | void => rw [(isAssignable_value_iff rfl).mp assignable, isAssignable_refl]
    | primitive kind => rw [(isAssignable_value_iff rfl).mp assignable, isAssignable_refl]
    | array component =>
        obtain ⟨_, rfl, _⟩ := isAssignable_array_iff.mp assignable
        exact assignable
    | ofClass id =>
        rcases isAssignable_class_iff.mp assignable with ⟨_, rfl, _⟩ | ⟨⟨_, rfl⟩, _⟩
        · exact assignable
        · exact assignable

theorem narrows_of_accepts {params types : List Ty}
    (accepted : pairwise store.accepts params types = true) : store.Narrows types params := by
  have positions := (pairwise_iff.mp accepted).flip
  exact positions.imp fun _ _ position => isAssignable_boxed_of_accepts position

end Store

end MemberDispatch
