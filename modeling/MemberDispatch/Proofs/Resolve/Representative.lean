import MemberDispatch.Proofs.Resolve.Suitability
import MemberDispatch.Proofs.Resolve.Unambiguous

/-!
# The representative of a class

The members that suit a query are scanned in the order of their declaration.
Each replacement goes down, or sideways to the types of the query themselves,
which lie below everything accepted.  So the member kept at the end lies below
the first one that suits, nothing that suits lies strictly below it, and it has
the very types of the query as soon as one of them has.
-/

set_option autoImplicit false

namespace MemberDispatch

namespace Scope

variable {scope : Scope} {query : Query} {id : ClassId} {kept candidate first : Candidate}

/-- The first member of a class, in the order of declaration, that suits. -/
structure FirstAccepted (scope : Scope) (query : Query) (id : ClassId) (first : Candidate) :
    Prop where
  accepted : scope.Accepted query id first
  leads : FirstIn (fun member => ∃ real, scope.Suits query member real) (scope.store.members id)
    first.member

theorem firstAccepted_iff :
    scope.FirstAccepted query id first ↔ (scope.candidatesIn query id).head? = some first := by
  have suited (member : Member) : (∃ real, scope.Suits query member real) ↔
      ∃ shown, scope.candidate? query member = some shown ∧ True := by
    simp [← exists_candidate?_iff]
  have ahead : (scope.candidatesIn query id).head? = some first ↔
      FirstIn (fun _ => True) (scope.candidatesIn query id) first := by
    cases scope.candidatesIn query id with
    | nil => simp [firstIn_nil]
    | cons head rest => simp [firstIn_cons, eq_comm]
  rw [ahead, candidatesIn, firstIn_filterMap]
  constructor
  · rintro ⟨accepted, leads⟩
    refine ⟨first.member, accepted.candidate?_eq, ?_⟩
    simpa only [suited] using leads
  · rintro ⟨member, accepted, leads⟩
    have same := (candidate?_eq_some_iff.mp accepted).1
    refine ⟨accepted_of_candidate? leads.mem accepted, ?_⟩
    simpa only [suited, same] using leads

/-- The scan only ever goes down from where it starts. -/
theorem candidateIn_narrows_first (wellFormed : scope.store.WellFormed)
    (represents : scope.candidateIn query id = some kept)
    (leads : scope.FirstAccepted query id first) :
    scope.store.Narrows kept.realParams first.realParams := by
  obtain ⟨rest, listed⟩ := List.head?_eq_some_iff.mp (firstAccepted_iff.mp leads)
  rw [candidateIn_eq_champion?, listed, champion?, Option.some.injEq] at represents
  rw [← represents]
  refine (prefers_followsOrder wellFormed query.types).champion_weak leads.accepted.narrows ?_
  intro later member
  have present : later ∈ scope.candidatesIn query id := listed ▸ List.mem_cons_of_mem first member
  exact (mem_candidatesIn_iff.mp present).narrows

theorem candidateIn_identical (acyclic : scope.store.Acyclic) (object : scope.store.Bare .object)
    (represents : scope.candidateIn query id = some kept)
    (accepted : scope.Accepted query id candidate) (identical : candidate.realParams = query.types) :
    kept.realParams = query.types := by
  have present : (scope.firstIdentical? query id).isSome := by
    rw [firstIdentical?, List.find?_isSome]
    exact ⟨candidate, mem_candidatesIn_iff.mpr accepted, isIdentical_iff.mpr identical⟩
  obtain ⟨foremost, found⟩ := Option.isSome_iff_exists.mp present
  have taken : scope.candidateIn query id = some foremost :=
    candidateIn_eq_firstIdentical? (fun _ other => other.not_undercuts acyclic object) found
  rw [represents, Option.some.injEq] at taken
  exact taken ▸ (firstIdentical?_accepted found).2

/-- What represents a class is an accepted member of it with no accepted member
strictly below; it lies below the first one accepted, and has the types of the
query themselves if any accepted member has. -/
theorem candidateIn_least_of_level (wellFormed : scope.store.WellFormed)
    (represents : scope.candidateIn query id = some kept) :
    scope.Accepted query id kept ∧
      (∀ candidate, scope.Accepted query id candidate →
        ¬ scope.store.moreSpecific candidate.realParams kept.realParams = true) ∧
      (∃ first, scope.FirstAccepted query id first) ∧
      (∀ first, scope.FirstAccepted query id first →
        scope.store.Narrows kept.realParams first.realParams) ∧
      ((∃ candidate, scope.Accepted query id candidate ∧ candidate.realParams = query.types) →
        kept.realParams = query.types) := by
  have accepted := candidateIn_accepted represents
  refine ⟨accepted, ?_, ?_, ?_, ?_⟩
  · intro candidate other
    exact candidateIn_minimal wellFormed represents other
  · cases listed : scope.candidatesIn query id with
    | nil =>
        have member := mem_candidatesIn_iff.mpr accepted
        simp [listed] at member
    | cons first rest => exact ⟨first, firstAccepted_iff.mpr (listed ▸ rfl)⟩
  · intro first leads
    exact candidateIn_narrows_first wellFormed represents leads
  · rintro ⟨candidate, other, identical⟩
    exact candidateIn_identical wellFormed.acyclic wellFormed.object represents other identical

end Scope

/-! ## On a gauge -/

namespace Gauges

/-- A gauge is asked to add a boxed integer.  The scan starts from its list for
numbers, goes down to the one for integers, and sideways to the one for boxed
integers. -/
theorem gauge_representative :
    scope.store.WellFormed ∧
      ∃ first kept, scope.FirstAccepted adding gauge first ∧
        first.realParams = [.ofClass .number] ∧
        scope.candidateIn adding gauge = some kept ∧ kept.realParams = [integer] ∧
        scope.store.Narrows kept.realParams first.realParams := by
  have listed : ((scope.candidatesIn adding gauge).map Candidate.realParams) =
      [[.ofClass .number], [.primitive .int], [integer]] := by
    decide +kernel
  cases candidates : scope.candidatesIn adding gauge with
  | nil => simp [candidates] at listed
  | cons first rest =>
      simp only [candidates, List.map_cons, List.cons.injEq] at listed
      have leads : scope.FirstAccepted adding gauge first :=
        Scope.firstAccepted_iff.mpr (candidates ▸ rfl)
      obtain ⟨kept, represents⟩ := leads.accepted.exists_representative
      obtain ⟨-, -, -, below, identical⟩ :=
        Scope.candidateIn_least_of_level scope_wellFormed represents
      have boxed : ∃ candidate, scope.Accepted adding gauge candidate ∧
          candidate.realParams = adding.types := by
        have last : [integer] ∈ rest.map Candidate.realParams := by
          rw [listed.2]
          simp
        obtain ⟨candidate, member, same⟩ := List.mem_map.mp last
        refine ⟨candidate, Scope.mem_candidatesIn_iff.mp ?_, same⟩
        exact candidates ▸ List.mem_cons_of_mem first member
      exact ⟨scope_wellFormed, first, kept, leads, listed.1, represents, identical boxed,
        below first leads⟩

end Gauges

end MemberDispatch
