import Mathlib.Data.List.Nodup
import Mathlib.Data.String.Basic
import MemberDispatch.LogFilter.Basic

/-!
# The order of a filter

A filter is built by putting one directive after the other in its place.  No
target occurs twice, and each keeps the verbosity that was put last.  Since the
order is total, a filter is determined by the verbosities of its targets.
-/

set_option autoImplicit false

namespace MemberDispatch.LogFilter

variable {first second third target : Option String} {added : Directive}
  {directives placed : List Directive}

/-! ## Targets -/

theorem standsBefore_irrefl (target : Option String) : standsBefore target target = false := by
  cases target <;> simp [standsBefore]

theorem standsBefore_trans (before : standsBefore first second = true)
    (after : standsBefore second third = true) : standsBefore first third = true := by
  cases first with
  | none => cases before
  | some first =>
      cases second with
      | none => cases after
      | some second =>
          cases third with
          | none => rfl
          | some third =>
              simp only [standsBefore, Bool.or_eq_true, Bool.and_eq_true, decide_eq_true_eq]
                at before after ⊢
              rcases before with longer | ⟨same, less⟩ <;> rcases after with longer' | ⟨same', less'⟩
              · exact .inl (longer'.trans longer)
              · exact .inl (same' ▸ longer)
              · exact .inl (same ▸ longer')
              · exact .inr ⟨same'.trans same, less'.trans less⟩

theorem standsBefore_total (differ : first ≠ second) :
    standsBefore first second = true ∨ standsBefore second first = true := by
  cases first with
  | none =>
      cases second with
      | none => exact absurd rfl differ
      | some second => exact .inr rfl
  | some first =>
      cases second with
      | none => exact .inl rfl
      | some second =>
          simp only [standsBefore, Bool.or_eq_true, Bool.and_eq_true, decide_eq_true_eq]
          have names : first < second ∨ second < first :=
            lt_or_gt_of_ne fun same => differ (congrArg some same)
          grind

theorem ne_of_standsBefore (before : standsBefore first second = true) : first ≠ second := by
  intro same
  rw [same, standsBefore_irrefl] at before
  cases before

/-! ## Verbosities -/

/-- The verbosity of the first directive for a target. -/
def verbosityFor? (directives : List Directive) (target : Option String) : Option Verbosity :=
  (directives.find? fun directive => directive.target = target).map Directive.verbosity

/-- The verbosity of the last one. -/
def lastFor? (directives : List Directive) (target : Option String) : Option Verbosity :=
  verbosityFor? directives.reverse target

theorem verbosityFor?_cons (head : Directive) (rest : List Directive) (target : Option String) :
    verbosityFor? (head :: rest) target =
      if head.target = target then some head.verbosity else verbosityFor? rest target := by
  by_cases same : head.target = target <;> simp [verbosityFor?, same]

theorem verbosityFor?_append (before after : List Directive) (target : Option String) :
    verbosityFor? (before ++ after) target =
      (verbosityFor? before target).or (verbosityFor? after target) := by
  rw [verbosityFor?, List.find?_append, Option.map_or]
  rfl

theorem lastFor?_eq_none_iff :
    lastFor? directives target = none ↔ ∀ directive ∈ directives, directive.target ≠ target := by
  simp [lastFor?, verbosityFor?]

theorem lastFor?_append (before after : List Directive) (target : Option String) :
    lastFor? (before ++ after) target = (lastFor? after target).or (lastFor? before target) := by
  rw [lastFor?, List.reverse_append, verbosityFor?_append]
  rfl

/-- Where no target occurs twice, its verbosity is that of the one directive. -/
theorem verbosityFor?_eq_some_iff (distinct : (directives.map Directive.target).Nodup)
    {verbosity : Verbosity} :
    verbosityFor? directives target = some verbosity ↔ ⟨target, verbosity⟩ ∈ directives := by
  induction directives with
  | nil => simp [verbosityFor?]
  | cons head rest ih =>
      obtain ⟨fresh, distinct⟩ := List.nodup_cons.mp distinct
      rw [verbosityFor?_cons, List.mem_cons]
      by_cases same : head.target = target
      · subst same
        have absent : ⟨head.target, verbosity⟩ ∉ rest := fun later =>
          fresh (List.mem_map.mpr ⟨_, later, rfl⟩)
        rw [if_pos rfl, Option.some.injEq, or_iff_left absent, Directive.mk.injEq]
        exact ⟨fun known => ⟨rfl, known.symm⟩, fun known => known.2.symm⟩
      · have other : (⟨target, verbosity⟩ : Directive) ≠ head := by
          intro found
          exact same (congrArg Directive.target found.symm)
        rw [if_neg same, ih distinct, or_iff_right other]

/-! ## Ordered directives -/

def Ordered (directives : List Directive) : Prop :=
  directives.Pairwise fun first second => standsBefore first.target second.target = true

theorem Ordered.distinct (ordered : Ordered directives) :
    (directives.map Directive.target).Nodup :=
  List.pairwise_map.mpr (ordered.imp ne_of_standsBefore)

theorem Ordered.lastFor?_eq (ordered : Ordered directives) (target : Option String) :
    lastFor? directives target = verbosityFor? directives target := by
  have distinct : (directives.reverse.map Directive.target).Nodup := by
    rw [List.map_reverse]
    exact List.nodup_reverse.mpr ordered.distinct
  refine Option.ext fun verbosity => ?_
  rw [lastFor?, verbosityFor?_eq_some_iff distinct, verbosityFor?_eq_some_iff ordered.distinct,
    List.mem_reverse]

theorem Ordered.eq_of_verbosities {others : List Directive} (ordered : Ordered directives)
    (orderedOthers : Ordered others)
    (same : ∀ target, verbosityFor? directives target = verbosityFor? others target) :
    directives = others := by
  have members (directive : Directive) : directive ∈ directives ↔ directive ∈ others := by
    rw [← verbosityFor?_eq_some_iff ordered.distinct, same,
      verbosityFor?_eq_some_iff orderedOthers.distinct]
  have perm : directives.Perm others :=
    (List.perm_ext_iff_of_nodup ordered.distinct.of_map orderedOthers.distinct.of_map).mpr members
  refine perm.eq_of_pairwise (fun first second _ _ before after => ?_) ordered orderedOthers
  exact absurd rfl (ne_of_standsBefore (standsBefore_trans before after))

/-! ## One directive -/

theorem mem_put {directive : Directive} (member : directive ∈ put added directives) :
    directive = added ∨ directive ∈ directives := by
  induction directives with
  | nil => exact .inl (List.mem_singleton.mp member)
  | cons head rest ih =>
      rw [put] at member
      split at member
      · grind
      · split at member <;> grind

theorem Ordered.put (ordered : Ordered directives) : Ordered (LogFilter.put added directives) := by
  induction directives with
  | nil => exact List.pairwise_singleton _ _
  | cons head rest ih =>
      obtain ⟨first, rests⟩ := List.pairwise_cons.mp ordered
      rw [LogFilter.put]
      split
      · rename_i same
        exact List.pairwise_cons.mpr ⟨fun later member => same ▸ first later member, rests⟩
      · rename_i differ
        split
        · rename_i before
          refine List.pairwise_cons.mpr ⟨?_, ordered⟩
          exact List.forall_mem_cons.mpr
            ⟨before, fun later member => standsBefore_trans before (first later member)⟩
        · rename_i behind
          refine List.pairwise_cons.mpr ⟨?_, ih rests⟩
          intro later member
          rcases mem_put member with rfl | old
          · exact (standsBefore_total differ).resolve_right behind
          · exact first later old

theorem Ordered.verbosityFor?_put (ordered : Ordered directives) (target : Option String) :
    verbosityFor? (LogFilter.put added directives) target =
      if added.target = target then some added.verbosity else verbosityFor? directives target := by
  induction directives with
  | nil => simp [LogFilter.put, verbosityFor?_cons]
  | cons head rest ih =>
      have rests := ih (List.pairwise_cons.mp ordered).2
      rw [LogFilter.put]
      split
      · grind [verbosityFor?_cons]
      · split <;> grind [verbosityFor?_cons]

/-! ## Lists of directives -/

/-- The filter is ordered and has these verbosities. -/
structure Grants (filter : LogFilter) (verbosities : Option String → Option Verbosity) : Prop where
  ordered : Ordered filter.directives
  verbosity : ∀ target, verbosityFor? filter.directives target = verbosities target

theorem Grants.unique {filter other : LogFilter} {verbosities : Option String → Option Verbosity}
    (grants : filter.Grants verbosities) (otherGrants : other.Grants verbosities) : filter = other := by
  have same := grants.ordered.eq_of_verbosities otherGrants.ordered fun target =>
    (grants.verbosity target).trans (otherGrants.verbosity target).symm
  cases filter
  exact congrArg LogFilter.mk same

/-- All directives in their places, after those already placed. -/
theorem grants_foldl (directives : List Directive) (ordered : Ordered placed) :
    Grants ⟨directives.foldl (fun placed directive => put directive placed) placed⟩
      fun target => (lastFor? directives target).or (verbosityFor? placed target) := by
  induction directives generalizing placed with
  | nil => exact ⟨ordered, fun target => rfl⟩
  | cons head rest ih =>
      have next : Ordered (put head placed) := ordered.put
      obtain ⟨orderedAll, verbosities⟩ := ih next
      refine ⟨orderedAll, fun target => (verbosities target).trans ?_⟩
      -- The first directive counts where no later one has its target.
      rw [← List.singleton_append, lastFor?_append, Option.or_assoc, ordered.verbosityFor?_put]
      congr 1
      by_cases same : head.target = target <;> simp [lastFor?, verbosityFor?, same]

theorem grants_ofDirectives (nonempty : directives ≠ []) :
    (ofDirectives directives).Grants (lastFor? directives) := by
  cases directives with
  | nil => exact absurd rfl nonempty
  | cons head rest =>
      have nothing : Ordered [] := .nil
      have grants := grants_foldl (head :: rest) nothing
      refine ⟨grants.ordered, fun target => (grants.verbosity target).trans ?_⟩
      exact Option.or_none

theorem ofDirectives_of_ordered (nonempty : directives ≠ []) (ordered : Ordered directives) :
    ofDirectives directives = ⟨directives⟩ := by
  refine (grants_ofDirectives nonempty).unique ⟨ordered, fun target => ?_⟩
  exact (ordered.lastFor?_eq target).symm

theorem mem_foldl_put {directive : Directive}
    (member : directive ∈ directives.foldl (fun placed directive => put directive placed) placed) :
    directive ∈ directives ∨ directive ∈ placed := by
  induction directives generalizing placed with
  | nil => exact .inr member
  | cons head rest ih =>
      rcases ih member with later | earlier
      · exact .inl (List.mem_cons_of_mem head later)
      · rcases mem_put earlier with rfl | old
        · exact .inl List.mem_cons_self
        · exact .inr old

end MemberDispatch.LogFilter
