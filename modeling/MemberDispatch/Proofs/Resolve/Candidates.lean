import MemberDispatch.Proofs.Resolve.Champion

/-!
# Accepted members

A member is accepted for a query when its name agrees, its parameters count
right, perhaps after a leading context, and its real parameters admit the types.
Accepted lists lie above the types of the query.  A class is represented by an
accepted member below which it declares no other, and the chain as a whole by a
representative below which there is no other representative.
-/

set_option autoImplicit false

namespace MemberDispatch.Scope

variable {scope : Scope}

/-- A member that a class declares and that the query accepts. -/
structure Accepted (scope : Scope) (query : Query) (id : ClassId)
    (candidate : Candidate) : Prop where
  declared : candidate.member ∈ scope.store.members id
  named : candidate.member.name = query.name
  counted :
    scope.skipsContext? candidate.member.params query.types = some candidate.takesContext
  admitted : scope.admits query.mode candidate.realParams query.types = true

theorem candidate?_eq_some_iff {query : Query} {member : Member} {candidate : Candidate} :
    scope.candidate? query member = some candidate ↔
      candidate.member = member ∧ member.name = query.name ∧
        scope.skipsContext? member.params query.types = some candidate.takesContext ∧
        scope.admits query.mode candidate.realParams query.types = true := by
  rw [candidate?]
  cases counted : scope.skipsContext? member.params query.types with
  | none => simp
  | some takesContext =>
      constructor
      · intro accepted
        simp only [Option.ite_none_right_eq_some, Option.some.injEq] at accepted
        obtain ⟨⟨named, admitted⟩, rfl⟩ := accepted
        exact ⟨rfl, named, rfl, admitted⟩
      · rintro ⟨rfl, named, counted, admitted⟩
        cases Option.some.inj counted
        exact if_pos ⟨named, admitted⟩

theorem mem_candidatesIn_iff {query : Query} {id : ClassId} {candidate : Candidate} :
    candidate ∈ scope.candidatesIn query id ↔ scope.Accepted query id candidate := by
  rw [candidatesIn, List.mem_filterMap]
  constructor
  · rintro ⟨member, declared, accepted⟩
    obtain ⟨rfl, named, counted, admitted⟩ := candidate?_eq_some_iff.mp accepted
    exact ⟨declared, named, counted, admitted⟩
  · intro accepted
    exact ⟨candidate.member, accepted.declared, candidate?_eq_some_iff.mpr
      ⟨rfl, accepted.named, accepted.counted, accepted.admitted⟩⟩

/-- Accepted parameter lists lie above the types of the query. -/
theorem Accepted.narrows {query : Query} {id : ClassId} {candidate : Candidate}
    (accepted : scope.Accepted query id candidate) :
    scope.store.Narrows query.types candidate.realParams := by
  have admitted := accepted.admitted
  cases mode : query.mode with
  | exact =>
      rw [mode, admits] at admitted
      exact Store.narrows_of_boxed_eq (pairwise_equivalent_iff.mp admitted).symm
  | coercive =>
      rw [mode, admits] at admitted
      exact Store.narrows_of_accepts admitted

/-! ## The representative of a class -/

theorem candidateIn_accepted {query : Query} {id : ClassId} {kept : Candidate}
    (represents : scope.candidateIn query id = some kept) : scope.Accepted query id kept := by
  rw [candidateIn_eq_champion?] at represents
  exact mem_candidatesIn_iff.mp (mem_of_champion? represents)

theorem Accepted.exists_representative {query : Query} {id : ClassId} {candidate : Candidate}
    (accepted : scope.Accepted query id candidate) :
    ∃ kept, scope.candidateIn query id = some kept := by
  cases represents : scope.candidateIn query id with
  | some kept => exact ⟨kept, rfl⟩
  | none =>
      rw [candidateIn_eq_champion?, champion?_eq_none_iff] at represents
      have member := mem_candidatesIn_iff.mpr accepted
      simp [represents] at member

/-- Preference within a class follows the order of specificity on the lists
above the types of the query. -/
theorem prefers_followsOrder (wellFormed : scope.store.WellFormed) (types : List Ty) :
    FollowsOrder (scope.prefers types)
      (fun candidate => scope.store.Narrows types candidate.realParams)
      (fun lower upper => scope.store.Narrows lower.realParams upper.realParams)
      (fun lower upper =>
        scope.store.moreSpecific lower.realParams upper.realParams = true) where
  refl _ := Store.narrows_of_boxed_eq rfl
  trans below above := below.trans wellFormed above
  irrefl _ := Store.moreSpecific_irrefl _
  strict_trans specific above := Store.moreSpecific_of_narrows wellFormed specific above
  decisive specific := by rw [prefers, if_pos specific]
  faithful := by
    intro challenger incumbent _ incumbentAccepts preferred
    rw [prefers] at preferred
    split at preferred
    · rename_i specific
      exact (Store.moreSpecific_iff.mp specific).1
    · split at preferred
      · simp at preferred
      · -- The tie goes to a list that is the query's own.
        have identical := (of_decide_eq_true preferred).1
        rw [identical]
        exact incumbentAccepts

/-- A class declares no accepted member that is more specific than the one that
represents it. -/
theorem candidateIn_minimal (wellFormed : scope.store.WellFormed) {query : Query}
    {id : ClassId} {kept candidate : Candidate}
    (represents : scope.candidateIn query id = some kept)
    (accepted : scope.Accepted query id candidate) :
    ¬ scope.store.moreSpecific candidate.realParams kept.realParams = true := by
  rw [candidateIn_eq_champion?] at represents
  refine (prefers_followsOrder wellFormed query.types).champion?_minimal ?_ represents
    candidate (mem_candidatesIn_iff.mpr accepted)
  intro other member
  exact (mem_candidatesIn_iff.mp member).narrows

/-! ## The representative of a chain -/

theorem displaces_followsOrder (wellFormed : scope.store.WellFormed) :
    FollowsOrder scope.displaces (fun _ => True)
      (fun lower upper => scope.store.Narrows lower.realParams upper.realParams)
      (fun lower upper =>
        scope.store.moreSpecific lower.realParams upper.realParams = true) where
  refl _ := Store.narrows_of_boxed_eq rfl
  trans below above := below.trans wellFormed above
  irrefl _ := Store.moreSpecific_irrefl _
  strict_trans specific above := Store.moreSpecific_of_narrows wellFormed specific above
  decisive specific := specific
  faithful _ _ displaced := (Store.moreSpecific_iff.mp displaced).1

theorem resolve_represents {query : Query} {start : ClassId} {found : Candidate}
    (resolved : scope.resolve query start = some found) :
    ∃ id ∈ scope.chain start, scope.candidateIn query id = some found := by
  rw [resolve_eq_champion?] at resolved
  exact List.mem_filterMap.mp (mem_of_champion? resolved)

/-- No class of the chain is represented by a more specific candidate than the
one that resolution finds. -/
theorem resolve_minimal_representative (wellFormed : scope.store.WellFormed)
    {query : Query} {start id : ClassId} {found kept : Candidate}
    (resolved : scope.resolve query start = some found) (visited : id ∈ scope.chain start)
    (represents : scope.candidateIn query id = some kept) :
    ¬ scope.store.moreSpecific kept.realParams found.realParams = true := by
  rw [resolve_eq_champion?] at resolved
  apply (displaces_followsOrder wellFormed).champion?_minimal (fun _ _ => trivial) resolved kept
  exact List.mem_filterMap.mpr ⟨id, visited, represents⟩

end MemberDispatch.Scope
