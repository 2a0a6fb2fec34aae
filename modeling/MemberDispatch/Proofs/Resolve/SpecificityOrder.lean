import MemberDispatch.Proofs.Resolve.Specificity

/-!
# Specificity is a strict partial order

The comparison of two lists says no more than their positions do: boxed
assignability at each of them, and a difference at one.  On a well-formed
hierarchy it orders parameter lists strictly, and lists that boxing identifies
stand at the same place of the order.
-/

set_option autoImplicit false

namespace MemberDispatch

/-- A relation between lists of one length holds at every position. -/
theorem forall₂_iff_positions {α β : Type} {R : α → β → Prop} {firsts : List α}
    {seconds : List β} :
    List.Forall₂ R firsts seconds ↔
      firsts.length = seconds.length ∧
        ∀ (position : Nat) first second, firsts[position]? = some first →
          seconds[position]? = some second → R first second := by
  constructor
  · intro related
    refine ⟨related.length_eq, ?_⟩
    induction related with
    | nil => simp
    | cons head _ ih =>
        intro position first second firstAt secondAt
        cases position with
        | zero =>
            obtain rfl := Option.some.inj firstAt
            obtain rfl := Option.some.inj secondAt
            exact head
        | succ position => exact ih position first second firstAt secondAt
  · rintro ⟨sameLength, positions⟩
    induction firsts generalizing seconds with
    | nil =>
        obtain rfl := List.length_eq_zero_iff.mp sameLength.symm
        exact .nil
    | cons first firsts ih =>
        cases seconds with
        | nil => simp at sameLength
        | cons second seconds =>
            refine .cons (positions 0 first second rfl rfl) (ih (by simpa using sameLength) ?_)
            intro position
            exact positions (position + 1)

namespace Store

variable {store : Store} {current previous first second third : List Ty}

theorem narrows_iff_positions :
    store.Narrows current previous ↔
      current.length = previous.length ∧
        ∀ (position : Nat) low high, current[position]? = some low →
          previous[position]? = some high → store.isAssignable high.boxed low.boxed = true :=
  forall₂_iff_positions

/-- Lists of one length that boxing tells apart differ at a position. -/
theorem boxed_ne_iff_positions (sameLength : current.length = previous.length) :
    current.map Ty.boxed ≠ previous.map Ty.boxed ↔
      ∃ (position : Nat) (low high : Ty), current[position]? = some low ∧
        previous[position]? = some high ∧ low.boxed ≠ high.boxed := by
  have everywhere : current.map Ty.boxed = previous.map Ty.boxed ↔
      ∀ (position : Nat) low high, current[position]? = some low →
        previous[position]? = some high → low.boxed = high.boxed := by
    rw [← List.forall₂_eq_eq_eq, List.forall₂_map_left_iff, List.forall₂_map_right_iff,
      forall₂_iff_positions]
    simp [sameLength]
  rw [ne_eq, everywhere]
  simp

theorem moreSpecific_iff_positions :
    store.moreSpecific current previous = true ↔
      current.length = previous.length ∧
        (∃ (position : Nat) (low high : Ty), current[position]? = some low ∧
          previous[position]? = some high ∧ low.boxed ≠ high.boxed) ∧
        ∀ (position : Nat) low high, current[position]? = some low →
          previous[position]? = some high → store.isAssignable high.boxed low.boxed = true := by
  rw [moreSpecific_iff, narrows_iff_positions]
  constructor
  · rintro ⟨⟨sameLength, below⟩, differs⟩
    exact ⟨sameLength, (boxed_ne_iff_positions sameLength).mp differs, below⟩
  · rintro ⟨sameLength, differs, below⟩
    exact ⟨⟨sameLength, below⟩, (boxed_ne_iff_positions sameLength).mpr differs⟩

theorem moreSpecific_trans (wellFormed : store.WellFormed)
    (below : store.moreSpecific first second = true)
    (above : store.moreSpecific second third = true) : store.moreSpecific first third = true :=
  moreSpecific_of_narrows wellFormed below (moreSpecific_iff.mp above).1

theorem moreSpecific_asymm (wellFormed : store.WellFormed)
    (below : store.moreSpecific first second = true) : ¬ store.moreSpecific second first = true :=
  not_moreSpecific_of_narrows wellFormed.acyclic wellFormed.object (moreSpecific_iff.mp below).1

/-- Specificity reads boxed types alone. -/
theorem moreSpecific_congr {other : List Ty} (same : first.map Ty.boxed = second.map Ty.boxed)
    (others : third.map Ty.boxed = other.map Ty.boxed) :
    store.moreSpecific first third = store.moreSpecific second other := by
  rw [Bool.eq_iff_iff, moreSpecific_iff, moreSpecific_iff, narrows_iff_boxed, narrows_iff_boxed,
    same, others]

/-- A list is more specific exactly if it is of the same length, its boxed types
are assignable position by position, and one position differs.  This orders the
lists strictly, and does not tell lists apart that boxing identifies. -/
theorem moreSpecific_strictOrder (wellFormed : store.WellFormed) :
    (∀ current previous, store.moreSpecific current previous = true ↔
        current.length = previous.length ∧
          (∃ (position : Nat) (low high : Ty), current[position]? = some low ∧
            previous[position]? = some high ∧ low.boxed ≠ high.boxed) ∧
          ∀ (position : Nat) low high, current[position]? = some low →
            previous[position]? = some high → store.isAssignable high.boxed low.boxed = true) ∧
      (∀ types, ¬ store.moreSpecific types types = true) ∧
      (∀ first second, store.moreSpecific first second = true →
        ¬ store.moreSpecific second first = true) ∧
      (∀ first second third, store.moreSpecific first second = true →
        store.moreSpecific second third = true → store.moreSpecific first third = true) ∧
      ∀ first second, first.map Ty.boxed = second.map Ty.boxed →
        ¬ store.moreSpecific first second = true ∧ ¬ store.moreSpecific second first = true ∧
          ∀ third, store.moreSpecific first third = store.moreSpecific second third ∧
            store.moreSpecific third first = store.moreSpecific third second := by
  refine ⟨fun _ _ => moreSpecific_iff_positions, moreSpecific_irrefl, ?_, ?_, ?_⟩
  · intro first second below
    exact moreSpecific_asymm wellFormed below
  · intro first second third below above
    exact moreSpecific_trans wellFormed below above
  · intro first second same
    refine ⟨not_moreSpecific_of_boxed_eq same, not_moreSpecific_of_boxed_eq same.symm, ?_⟩
    intro third
    exact ⟨moreSpecific_congr same rfl, moreSpecific_congr rfl same⟩

end Store

/-! ## On the small hierarchy -/

namespace Gallery

def discsAndInt : List Ty := [.array (.ofClass disc), .primitive .int]

/-- Discs and an integer are more specific than circles and a boxed integer,
and these than anything cloneable and a number; boxing the first list changes
nothing. -/
theorem discsAndInt_ordered :
    store.WellFormed ∧
      store.moreSpecific discsAndInt [.array (.ofClass circle), .ofClass Primitive.int.wrapper]
        = true ∧
      store.moreSpecific [.array (.ofClass circle), .ofClass Primitive.int.wrapper]
        [.ofClass .cloneable, .ofClass .number] = true ∧
      store.moreSpecific discsAndInt [.ofClass .cloneable, .ofClass .number] = true ∧
      ¬ store.moreSpecific [.ofClass .cloneable, .ofClass .number] discsAndInt = true ∧
      store.moreSpecific (discsAndInt.map Ty.boxed) [.ofClass .cloneable, .ofClass .number]
        = true := by
  obtain ⟨-, -, asymm, trans, boxing⟩ := Store.moreSpecific_strictOrder store_wellFormed
  obtain ⟨circles, cloneables⟩ : store.moreSpecific discsAndInt
        [.array (.ofClass circle), .ofClass Primitive.int.wrapper] = true ∧
      store.moreSpecific [.array (.ofClass circle), .ofClass Primitive.int.wrapper]
        [.ofClass .cloneable, .ofClass .number] = true := by
    decide +kernel
  have composed := trans _ _ _ circles cloneables
  have again := ((boxing discsAndInt (discsAndInt.map Ty.boxed) rfl).2.2
    [.ofClass .cloneable, .ofClass .number]).1
  exact ⟨store_wellFormed, circles, cloneables, composed, asymm _ _ composed, again ▸ composed⟩

end Gallery

end MemberDispatch
