import MemberDispatch.Proofs.Hierarchy.Ascent
import MemberDispatch.Store.Platform

/-!
# Lineages

The classes that a search visits are the start and its superclasses one after
the other, up to a class without one, to the root, or to a class that is on the
list already.  On every store there is exactly one such list, and a search
visits it: the bound on its walk is never what ends it.
-/

set_option autoImplicit false

namespace MemberDispatch

namespace Store

variable {store : Store} {root start : ClassId} {classes others : List ClassId}

/-- A class and its superclasses below the root, none of them twice, as far as
they go. -/
structure Lineage (store : Store) (root start : ClassId) (classes : List ClassId) : Prop where
  starts : classes.head? = some start
  distinct : classes.Nodup
  climbs : ∀ (position : Nat) here next, classes[position]? = some here →
    classes[position + 1]? = some next → store.superclass? here = some next ∧ next ≠ root
  ends : ∀ last, classes.getLast? = some last → ∀ above, store.superclass? last = some above →
    above = root ∨ above ∈ classes

/-- Nothing follows a class that nobody has defined. -/
theorem Lineage.last_of_undefined (lineage : store.Lineage root start classes) {id : ClassId}
    (member : id ∈ classes) (undefined : store.class? id = none) :
    classes.getLast? = some id := by
  obtain ⟨position, reached⟩ := List.mem_iff_getElem?.mp member
  have inList := (List.getElem?_eq_some_iff.mp reached).choose
  cases above : classes[position + 1]? with
  | some next =>
      have climbed := (lineage.climbs position id next reached above).1
      simp [superclass?, undefined] at climbed
  | none =>
      have beyond := List.getElem?_eq_none_iff.mp above
      have top : classes.length - 1 = position := by omega
      rw [List.getLast?_eq_getElem?, top, reached]

/-- Two lineages that agree up to a position agree on what follows it. -/
theorem Lineage.next_of_agree (lineage : store.Lineage root start classes)
    (other : store.Lineage root start others) {position : Nat} {next : ClassId}
    (agree : ∀ lower ≤ position, classes[lower]? = others[lower]?)
    (follows : classes[position + 1]? = some next) : others[position + 1]? = some next := by
  have inList := (List.getElem?_eq_some_iff.mp follows).choose
  obtain ⟨here, reached⟩ : ∃ here, classes[position]? = some here :=
    ⟨_, List.getElem?_eq_getElem (Nat.lt_of_succ_lt inList)⟩
  obtain ⟨above, below⟩ := lineage.climbs position here next reached follows
  have otherReached := (agree position (Nat.le_refl position)).symm.trans reached
  cases otherNext : others[position + 1]? with
  | some rival =>
      have rivalAbove := (other.climbs position here rival otherReached otherNext).1
      exact rivalAbove.symm.trans above
  | none =>
      -- The other list ends here, so that it would already hold the next class.
      have otherInList := (List.getElem?_eq_some_iff.mp otherReached).choose
      have otherShort := List.getElem?_eq_none_iff.mp otherNext
      have top : others.length - 1 = position := by omega
      rw [← top, ← List.getLast?_eq_getElem?] at otherReached
      rcases other.ends here otherReached next above with atRoot | again
      · exact absurd atRoot below
      · obtain ⟨lower, lowerReached⟩ := List.mem_iff_getElem?.mp again
        have lowerInList := (List.getElem?_eq_some_iff.mp lowerReached).choose
        have repeated := (agree lower (by omega)).trans lowerReached
        have same : lower = position + 1 :=
          (List.getElem?_inj (by omega) lineage.distinct).mp (repeated.trans follows.symm)
        omega

theorem Lineage.unique (lineage : store.Lineage root start classes)
    (other : store.Lineage root start others) : classes = others := by
  have agree : ∀ position : Nat, ∀ lower ≤ position, classes[lower]? = others[lower]? := by
    intro position
    induction position with
    | zero =>
        intro lower atStart
        obtain rfl := Nat.le_zero.mp atStart
        rw [← List.head?_eq_getElem?, ← List.head?_eq_getElem?, lineage.starts, other.starts]
    | succ position ih =>
        intro lower below
        rcases Nat.lt_or_eq_of_le below with earlier | rfl
        · exact ih lower (by omega)
        · refine Option.ext fun next => ⟨lineage.next_of_agree other ih, ?_⟩
          exact other.next_of_agree lineage fun lower below => (ih lower below).symm
  exact List.ext_getElem? fun position => agree position position (Nat.le_refl position)

end Store

namespace Scope

variable {scope : Scope} {start : ClassId} {classes : List ClassId}

theorem lineage_chain (scope : Scope) (start : ClassId) :
    scope.store.Lineage scope.root start (scope.chain start) where
  starts := by
    simp [chain, Store.classChain, Store.walkBound, walk, beforeRepeat]
  distinct := (beforeRepeat_nodup [] _).1
  climbs := by
    intro position here next reached follows
    have climbed : scope.searched start position = some here := ascent_of_getElem?_lineOf reached
    have above : scope.searched start (position + 1) = some next :=
      ascent_of_getElem?_lineOf follows
    rw [searched, ascent_succ, ← searched, climbed, Option.bind_some] at above
    simpa using Option.filter_eq_some_iff.mp above
  ends := by
    intro last atEnd above superclass
    by_cases atRoot : above = scope.root
    · exact .inl atRoot
    · right
      have step : scope.store.superclassBelow? scope.root last = some above :=
        Option.filter_eq_some_iff.mpr ⟨superclass, by simpa using atRoot⟩
      obtain ⟨height, reached⟩ := mem_chain_iff.mp (List.mem_of_getLast? atEnd)
      refine mem_chain_iff.mpr ⟨height + 1, ?_⟩
      rw [searched, ascent_succ, ← searched, reached, Option.bind_some, step]

/-- The classes that a search visits are the one lineage of its start. -/
theorem lineage_iff : scope.store.Lineage scope.root start classes ↔ classes = scope.chain start := by
  constructor
  · intro lineage
    exact lineage.unique (lineage_chain scope start)
  · rintro rfl
    exact lineage_chain scope start

-- A cycle is cut before it repeats; a superclass that nobody has defined is the last class.
example :
    let left := (Store.empty.add (Store.platformClass "Left" (some ⟨1⟩) [])).2
    let round := (left.add (Store.platformClass "Right" (some ⟨0⟩) [])).2
    let store := (round.add (Store.platformClass "Loose" (some ⟨7⟩) [])).2
    store.classChain ⟨9⟩ ⟨0⟩ = [⟨0⟩, ⟨1⟩] ∧ store.classChain ⟨9⟩ ⟨2⟩ = [⟨2⟩, ⟨7⟩] := by
  decide +kernel

theorem length_chain_le (scope : Scope) (start : ClassId) :
    (scope.chain start).length ≤ scope.store.size + 1 := by
  have cut := beforeRepeat_prefix []
    (walk (scope.store.superclassBelow? scope.root) scope.store.walkBound start)
  refine Nat.le_trans cut.length_le ?_
  rw [← List.getElem?_eq_none_iff, getElem?_walk]
  exact if_neg (Nat.lt_irrefl _)

end Scope

end MemberDispatch
