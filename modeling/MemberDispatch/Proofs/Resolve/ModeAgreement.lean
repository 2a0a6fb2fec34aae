import MemberDispatch.Proofs.Resolve.MostSpecific

/-!
# Exact resolution within coercive resolution

The coercive mode accepts every member that the exact mode accepts, and many
more.  The exact ones are favoured by both scans: their lists lie below all
other accepted lists.  So the exact mode finds precisely what the coercive mode
finds, where that is exact, at each level and along the chain.
-/

set_option autoImplicit false

namespace MemberDispatch.Scope

variable {scope : Scope}

/-- The real parameters are the given types, up to boxing. -/
def isExact (types : List Ty) (candidate : Candidate) : Bool :=
  candidate.realParams.map Ty.boxed = types.map Ty.boxed

theorem isExact_iff {types : List Ty} {candidate : Candidate} :
    isExact types candidate = true ↔
      candidate.realParams.map Ty.boxed = types.map Ty.boxed := by
  simp [isExact]

/-! ## Exact candidates among the coercive ones -/

theorem admits_exact_iff {types : List Ty} {candidate : Candidate} :
    scope.admits .exact candidate.realParams types = true ↔
      scope.admits .coercive candidate.realParams types = true ∧
        isExact types candidate = true := by
  rw [admits, admits, pairwise_equivalent_iff, isExact_iff]
  constructor
  · intro same
    refine ⟨pairwise_iff.mpr ?_, same⟩
    have equivalents := pairwise_iff.mp (pairwise_equivalent_iff.mpr same)
    apply equivalents.imp
    intro param type equivalent
    rw [Store.accepts, equivalent, Bool.true_or]
  · exact And.right

theorem candidate?_exact (name : String) (types : List Ty) (member : Member) :
    scope.candidate? ⟨name, types, .exact⟩ member =
      (scope.candidate? ⟨name, types, .coercive⟩ member).filter (isExact types) := by
  ext candidate
  rw [Option.filter_eq_some_iff, candidate?_eq_some_iff, candidate?_eq_some_iff,
    admits_exact_iff]
  tauto

theorem candidatesIn_exact (name : String) (types : List Ty) (id : ClassId) :
    scope.candidatesIn ⟨name, types, .exact⟩ id =
      (scope.candidatesIn ⟨name, types, .coercive⟩ id).filter (isExact types) := by
  rw [candidatesIn, candidatesIn, List.filter_filterMap]
  congr 1
  funext member
  exact candidate?_exact name types member

/-! ## Exact candidates are favoured -/

/-- An exact list is strictly below every other list above the types. -/
theorem moreSpecific_of_exact {types : List Ty} {candidate other : Candidate}
    (accepts : scope.store.Narrows types other.realParams)
    (exact : isExact types candidate = true) (inexact : isExact types other = false) :
    scope.store.moreSpecific candidate.realParams other.realParams = true := by
  have same := isExact_iff.mp exact
  refine Store.moreSpecific_iff.mpr ⟨accepts.congr_left same.symm, ?_⟩
  intro equal
  have otherExact : isExact types other = true := isExact_iff.mpr (equal.symm.trans same)
  simp [otherExact] at inexact

theorem not_moreSpecific_than_exact (acyclic : scope.store.Acyclic)
    (object : scope.store.Bare .object) {types : List Ty} {candidate other : Candidate}
    (accepts : scope.store.Narrows types other.realParams)
    (exact : isExact types candidate = true) :
    ¬ scope.store.moreSpecific other.realParams candidate.realParams = true := by
  have same := isExact_iff.mp exact
  exact Store.not_moreSpecific_of_narrows acyclic object (accepts.congr_left same.symm)

theorem prefers_favours_exact (acyclic : scope.store.Acyclic)
    (object : scope.store.Bare .object) (supplied types : List Ty) :
    Favours (scope.prefers supplied)
      (fun candidate => scope.store.Narrows types candidate.realParams) (isExact types) where
  wins := by
    intro challenger incumbent _ accepts exact inexact
    rw [prefers, if_pos (moreSpecific_of_exact accepts exact inexact)]
  stays := by
    intro challenger incumbent accepts _ inexact exact
    rw [prefers, if_neg (not_moreSpecific_than_exact acyclic object accepts exact),
      if_pos (moreSpecific_of_exact accepts exact inexact)]

theorem displaces_favours_exact (acyclic : scope.store.Acyclic)
    (object : scope.store.Bare .object) (types : List Ty) :
    Favours scope.displaces
      (fun candidate => scope.store.Narrows types candidate.realParams) (isExact types) where
  wins := by
    intro farther nearer _ accepts exact inexact
    exact moreSpecific_of_exact accepts exact inexact
  stays := by
    intro farther nearer accepts _ _ exact
    exact eq_false_of_ne_true (not_moreSpecific_than_exact acyclic object accepts exact)

/-! ## Agreement -/

theorem candidateIn_exact (acyclic : scope.store.Acyclic) (object : scope.store.Bare .object)
    (name : String) (types : List Ty) (id : ClassId) :
    scope.candidateIn ⟨name, types, .exact⟩ id =
      (scope.candidateIn ⟨name, types, .coercive⟩ id).filter (isExact types) := by
  rw [candidateIn_eq_champion?, candidateIn_eq_champion?, candidatesIn_exact]
  apply (prefers_favours_exact acyclic object types types).champion?_filter
  intro candidate member
  exact (mem_candidatesIn_iff.mp member).narrows

theorem representatives_exact (acyclic : scope.store.Acyclic)
    (object : scope.store.Bare .object) (name : String) (types : List Ty) (start : ClassId) :
    scope.representatives ⟨name, types, .exact⟩ start =
      (scope.representatives ⟨name, types, .coercive⟩ start).filter (isExact types) := by
  rw [representatives, representatives, List.filter_filterMap]
  congr 1
  funext id
  exact candidateIn_exact acyclic object name types id

/-- The exact mode finds what the coercive mode finds, where that is exact. -/
theorem resolve_exact (acyclic : scope.store.Acyclic) (object : scope.store.Bare .object)
    (name : String) (types : List Ty) (start : ClassId) :
    scope.resolve ⟨name, types, .exact⟩ start =
      (scope.resolve ⟨name, types, .coercive⟩ start).filter (isExact types) := by
  rw [resolve_eq_champion?, resolve_eq_champion?, representatives_exact acyclic object]
  apply (displaces_favours_exact acyclic object types).champion?_filter
  intro candidate member
  obtain ⟨id, _, represents⟩ := List.mem_filterMap.mp member
  exact (candidateIn_accepted represents).narrows

/-- Whatever is found by its parameter types is found by the same types as those
of arguments: no overload that takes them by assignability comes before it. -/
theorem findCompatible_of_findSpecified (acyclic : scope.store.Acyclic)
    (object : scope.store.Bare .object) {start : ClassId} {name : String} {types : List Ty}
    {member : Member} (found : scope.findSpecified start name types = .ok member) :
    scope.findCompatible start name types = .ok member := by
  rw [findSpecified, resolve_exact acyclic object] at found
  rw [findCompatible, findCompatible?]
  cases coercive : scope.resolve ⟨name, types, .coercive⟩ start with
  | none => simp [coercive] at found
  | some candidate =>
      rw [coercive] at found
      by_cases exact : isExact types candidate = true
      · rw [Option.filter_some_pos exact] at found
        exact found
      · rw [Option.filter_some_neg (eq_false_of_ne_true exact)] at found
        simp at found

end MemberDispatch.Scope

namespace MemberDispatch.Gallery

/-- A sketch declares an overload that takes circles as shapes, and is nearer
than the canvas with the overload for circles. -/
theorem findCompatible_circle :
    scope.store.Acyclic ∧ scope.store.Bare .object ∧
      ∃ member, scope.findSpecified sketch "draw" [.ofClass circle] = .ok member ∧
        scope.findCompatible sketch "draw" [.ofClass circle] = .ok member := by
  have computed : (scope.resolve ⟨"draw", [.ofClass circle], .exact⟩ sketch).isSome = true := by
    decide +kernel
  obtain ⟨found, resolved⟩ := Option.isSome_iff_exists.mp computed
  have specified :
      scope.findSpecified sketch "draw" [.ofClass circle] = .ok found.member := by
    rw [Scope.findSpecified, resolved]
  exact ⟨scope_wellFormed.acyclic, scope_wellFormed.object, found.member, specified,
    Scope.findCompatible_of_findSpecified scope_wellFormed.acyclic scope_wellFormed.object
      specified⟩

end MemberDispatch.Gallery
