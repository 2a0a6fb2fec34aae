import MemberDispatch.Proofs.Resolve.Candidates
import MemberDispatch.Proofs.Store.Reachable

/-!
# When resolution finds a most specific member

Each class hands a single representative to the scan along the chain.  What the
scan finds is therefore never outranked by a representative, but it may be
outranked by a member that its own class passed over in favour of an unordered
one.  This is the only way: the answer is most specific among all accepted
members of the chain exactly when no class of the chain does that.
-/

set_option autoImplicit false

namespace MemberDispatch

/-- Neither list is as specific as the other. -/
def Store.Unordered (store : Store) (first second : List Ty) : Prop :=
  ¬ store.Narrows first second ∧ ¬ store.Narrows second first

namespace Scope

variable {scope : Scope}

/-- No accepted member on the chain is more specific than the answer. -/
def MostSpecific (scope : Scope) (query : Query) (start : ClassId) (found : Candidate) : Prop :=
  ∀ id ∈ scope.chain start, ∀ candidate, scope.Accepted query id candidate →
    ¬ scope.store.moreSpecific candidate.realParams found.realParams = true

/-- A class keeps a representative that is unordered with the answer, and passes
over a member, unordered with the representative, that outranks the answer. -/
def PassesOver (scope : Scope) (query : Query) (id : ClassId) (found : Candidate) : Prop :=
  ∃ kept candidate, scope.candidateIn query id = some kept ∧
    scope.Accepted query id candidate ∧
    scope.store.Unordered kept.realParams found.realParams ∧
    scope.store.Unordered candidate.realParams kept.realParams ∧
    scope.store.moreSpecific candidate.realParams found.realParams = true

/-- A class that declares a member outranking the answer has passed it over. -/
theorem passesOver_of_outranks (wellFormed : scope.store.WellFormed) {query : Query}
    {start id : ClassId} {found candidate : Candidate}
    (resolved : scope.resolve query start = some found) (visited : id ∈ scope.chain start)
    (accepted : scope.Accepted query id candidate)
    (outranks : scope.store.moreSpecific candidate.realParams found.realParams = true) :
    scope.PassesOver query id found := by
  obtain ⟨kept, represents⟩ := accepted.exists_representative
  have keptMinimal := candidateIn_minimal wellFormed represents accepted
  have foundMinimal := resolve_minimal_representative wellFormed resolved visited represents
  have foundNotBelow : ¬ scope.store.Narrows found.realParams kept.realParams := by
    intro below
    exact keptMinimal (Store.moreSpecific_of_narrows wellFormed outranks below)
  have keptNotBelow : ¬ scope.store.Narrows kept.realParams found.realParams := by
    intro below
    by_cases same : kept.realParams.map Ty.boxed = found.realParams.map Ty.boxed
    · exact foundNotBelow (Store.narrows_of_boxed_eq same.symm)
    · exact foundMinimal (Store.moreSpecific_iff.mpr ⟨below, same⟩)
  have keptNotBelowCandidate :
      ¬ scope.store.Narrows kept.realParams candidate.realParams := by
    intro below
    exact keptNotBelow (below.trans wellFormed (Store.moreSpecific_iff.mp outranks).1)
  have candidateNotBelow :
      ¬ scope.store.Narrows candidate.realParams kept.realParams := by
    intro below
    by_cases same : candidate.realParams.map Ty.boxed = kept.realParams.map Ty.boxed
    · exact keptNotBelowCandidate (Store.narrows_of_boxed_eq same.symm)
    · exact keptMinimal (Store.moreSpecific_iff.mpr ⟨below, same⟩)
  exact ⟨kept, candidate, represents, accepted, ⟨keptNotBelow, foundNotBelow⟩,
    ⟨candidateNotBelow, keptNotBelowCandidate⟩, outranks⟩

/-- The answer of resolution represents a class of the chain and is outranked by
no representative; it is outranked by no accepted member at all exactly when no
class of the chain passes one over. -/
theorem resolve_mostSpecific_iff (wellFormed : scope.store.WellFormed) {query : Query}
    {start : ClassId} {found : Candidate}
    (resolved : scope.resolve query start = some found) :
    (∃ id ∈ scope.chain start, scope.candidateIn query id = some found) ∧
    (∀ id ∈ scope.chain start, ∀ kept, scope.candidateIn query id = some kept →
      ¬ scope.store.moreSpecific kept.realParams found.realParams = true) ∧
    (scope.MostSpecific query start found ↔
      ∀ id ∈ scope.chain start, ¬ scope.PassesOver query id found) := by
  refine ⟨resolve_represents resolved, ?_, ?_⟩
  · intro id visited kept represents
    exact resolve_minimal_representative wellFormed resolved visited represents
  · constructor
    · intro mostSpecific id visited passesOver
      obtain ⟨_, candidate, _, accepted, _, _, outranks⟩ := passesOver
      exact mostSpecific id visited candidate accepted outranks
    · intro keepsAll id visited candidate accepted outranks
      exact keepsAll id visited
        (passesOver_of_outranks wellFormed resolved visited accepted outranks)

/-- Classes whose accepted overloads are ordered pass nothing over. -/
theorem mostSpecific_of_ordered (wellFormed : scope.store.WellFormed) {query : Query}
    {start : ClassId} {found : Candidate}
    (ordered : ∀ id ∈ scope.chain start, ∀ first second,
      scope.Accepted query id first → scope.Accepted query id second →
        ¬ scope.store.Unordered first.realParams second.realParams)
    (resolved : scope.resolve query start = some found) :
    scope.MostSpecific query start found := by
  intro id visited candidate accepted outranks
  obtain ⟨kept, lost, represents, lostAccepted, _, unordered, _⟩ :=
    passesOver_of_outranks wellFormed resolved visited accepted outranks
  exact ordered id visited lost kept lostAccepted (candidateIn_accepted represents) unordered

end Scope

/-! ## On the small hierarchy -/

namespace Gallery

def drawing (id : ClassId) : Query := ⟨"draw", [.ofClass id], .coercive⟩

theorem scope_wellFormed : scope.store.WellFormed := by
  simp only [scope, Scope.ofStore]
  exact store_wellFormed

/-- A circle on a sketch: the canvas has the one overload for it, which
displaces the sketch's. -/
theorem resolve_circle_mostSpecific :
    scope.store.WellFormed ∧
      ∃ found, scope.resolve (drawing circle) sketch = some found ∧
        ∀ id ∈ scope.chain sketch, ¬ scope.PassesOver (drawing circle) id found := by
  have computed :
      ((scope.resolve (drawing circle) sketch).any fun found =>
        (scope.chain sketch).all fun id =>
          (scope.candidatesIn (drawing circle) id).all fun candidate =>
            !scope.store.moreSpecific candidate.realParams found.realParams) = true := by
    decide +kernel
  obtain ⟨found, resolved, mostSpecific⟩ := (Option.any_eq_true _ _).mp computed
  refine ⟨scope_wellFormed, found, resolved, ?_⟩
  apply (Scope.resolve_mostSpecific_iff scope_wellFormed resolved).2.2.mp
  intro id visited candidate accepted
  have level := List.all_eq_true.mp mostSpecific id visited
  have unranked := List.all_eq_true.mp level candidate (Scope.mem_candidatesIn_iff.mpr accepted)
  simpa using unranked

/-- A disc on a sketch: the canvas keeps its overload for drawables, unordered
with the sketch's for shapes, and so the one for circles is lost, though it is
more specific than the sketch's. -/
theorem resolve_disc_outranked :
    scope.store.WellFormed ∧
      ∃ found, scope.resolve (drawing disc) sketch = some found ∧
        ¬ scope.MostSpecific (drawing disc) sketch found := by
  have computed :
      ((scope.resolve (drawing disc) sketch).any fun found =>
        (scope.chain sketch).any fun id =>
          (scope.candidatesIn (drawing disc) id).any fun candidate =>
            scope.store.moreSpecific candidate.realParams found.realParams) = true := by
    decide +kernel
  obtain ⟨found, resolved, outranked⟩ := (Option.any_eq_true _ _).mp computed
  obtain ⟨id, visited, level⟩ := List.any_eq_true.mp outranked
  obtain ⟨candidate, member, outranks⟩ := List.any_eq_true.mp level
  refine ⟨scope_wellFormed, found, resolved, ?_⟩
  intro mostSpecific
  exact mostSpecific id visited candidate (Scope.mem_candidatesIn_iff.mp member) outranks

end Gallery

end MemberDispatch
