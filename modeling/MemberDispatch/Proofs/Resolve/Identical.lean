import MemberDispatch.Proofs.Resolve.ModeAgreement

/-!
# Identical overloads

A candidate is identical to a query when its real parameters are the types of
the query themselves, letter for letter.  Such a candidate beats every other in
its class and is displaced by none of the chain, unless some accepted list is
more specific than the types of the query, which takes a cycle in the hierarchy.
Among several identical candidates nothing is preferred, so the first one stays.
-/

set_option autoImplicit false

namespace MemberDispatch.Scope

variable {scope : Scope}

/-- The real parameters are the given types, boxing included. -/
def isIdentical (types : List Ty) (candidate : Candidate) : Bool :=
  candidate.realParams = types

/-- The first candidate of a class, in declaration order, whose real parameters
are the types of the query. -/
def firstIdentical? (scope : Scope) (query : Query) (id : ClassId) : Option Candidate :=
  (scope.candidatesIn query id).find? (isIdentical query.types)

/-- A candidate whose list is more specific than the very types it accepts. -/
def Undercuts (scope : Scope) (types : List Ty) (candidate : Candidate) : Prop :=
  scope.store.moreSpecific candidate.realParams types = true

theorem isIdentical_iff {types : List Ty} {candidate : Candidate} :
    isIdentical types candidate = true ↔ candidate.realParams = types := by
  simp [isIdentical]

/-- Accepted lists lie above the types of the query, so without a cycle none of
them lies below. -/
theorem Accepted.not_undercuts (acyclic : scope.store.Acyclic)
    (object : scope.store.Bare .object) {query : Query} {id : ClassId} {candidate : Candidate}
    (accepted : scope.Accepted query id candidate) : ¬ scope.Undercuts query.types candidate :=
  Store.not_moreSpecific_of_narrows acyclic object accepted.narrows

theorem firstIdentical?_accepted {query : Query} {id : ClassId} {first : Candidate}
    (found : scope.firstIdentical? query id = some first) :
    scope.Accepted query id first ∧ first.realParams = query.types :=
  ⟨mem_candidatesIn_iff.mp (List.mem_of_find?_eq_some found),
    isIdentical_iff.mp (List.find?_some found)⟩

/-! ## A member with exactly the types of the query -/

theorem admits_self (mode : MatchMode) (types : List Ty) :
    scope.admits mode types types = true := by
  have equivalent : pairwise Ty.equivalent types types = true := pairwise_equivalent_iff.mpr rfl
  cases mode with
  | exact => rwa [admits]
  | coercive =>
      rw [admits]
      refine pairwise_iff.mpr ((pairwise_iff.mp equivalent).imp ?_)
      intro param type same
      rw [Store.accepts, same, Bool.true_or]

/-- A member whose whole parameter list is the types of the query is a candidate
that takes no context. -/
theorem accepted_of_params_eq {query : Query} {id : ClassId} {plain : Member}
    (declared : plain ∈ scope.store.members id) (named : plain.name = query.name)
    (same : plain.params = query.types) : scope.Accepted query id ⟨plain, false⟩ := by
  have real : Candidate.realParams ⟨plain, false⟩ = query.types := same
  exact
    { declared, named
      counted := by simp [skipsContext?, same]
      admitted := by rw [real]; exact admits_self query.mode query.types }

theorem exists_firstIdentical {query : Query} {id : ClassId} {plain : Member}
    (declared : plain ∈ scope.store.members id) (named : plain.name = query.name)
    (same : plain.params = query.types) :
    ∃ first, scope.firstIdentical? query id = some first := by
  have candidate := mem_candidatesIn_iff.mpr (accepted_of_params_eq declared named same)
  have identical : isIdentical query.types ⟨plain, false⟩ = true := isIdentical_iff.mpr same
  exact Option.isSome_iff_exists.mp (List.find?_isSome.mpr ⟨_, candidate, identical⟩)

/-! ## Within a class -/

/-- Within a class identical candidates win every comparison but those with
lists that are more specific still. -/
theorem prefers_favours_identical (types : List Ty) :
    Favours (scope.prefers types) (fun candidate => ¬ scope.Undercuts types candidate)
      (isIdentical types) where
  wins := by
    intro challenger incumbent _ incumbentAbove identical other
    have same := isIdentical_iff.mp identical
    have differs : incumbent.realParams ≠ types := fun equal => by
      simp [isIdentical_iff.mpr equal] at other
    rw [Undercuts] at incumbentAbove
    rw [prefers, same, if_neg incumbentAbove]
    simp [differs]
  stays := by
    intro challenger incumbent challengerAbove _ other identical
    have same := isIdentical_iff.mp identical
    have differs : challenger.realParams ≠ types := fun equal => by
      simp [isIdentical_iff.mpr equal] at other
    rw [Undercuts] at challengerAbove
    rw [prefers, same, if_neg challengerAbove]
    simp [differs]

theorem not_prefers_among_identical {types : List Ty} {challenger incumbent : Candidate}
    (first : isIdentical types challenger = true) (second : isIdentical types incumbent = true) :
    scope.prefers types challenger incumbent = false := by
  rw [prefers, isIdentical_iff.mp first, isIdentical_iff.mp second,
    if_neg (Store.moreSpecific_irrefl types), if_neg (Store.moreSpecific_irrefl types)]
  simp

/-- A class is represented by its first identical candidate, if it has one and no
accepted list of the class undercuts the query. -/
theorem candidateIn_eq_firstIdentical? {query : Query} {id : ClassId} {first : Candidate}
    (above : ∀ candidate, scope.Accepted query id candidate →
      ¬ scope.Undercuts query.types candidate)
    (found : scope.firstIdentical? query id = some first) :
    scope.candidateIn query id = some first := by
  have valid : ∀ candidate ∈ scope.candidatesIn query id,
      ¬ scope.Undercuts query.types candidate :=
    fun candidate member => above candidate (mem_candidatesIn_iff.mp member)
  have head :
      ((scope.candidatesIn query id).filter (isIdentical query.types)).head? = some first := by
    rw [List.head?_filter]
    exact found
  have some : (scope.candidatesIn query id).filter (isIdentical query.types) ≠ [] := by
    intro empty
    simp [empty] at head
  rw [candidateIn_eq_champion?,
    (prefers_favours_identical query.types).champion?_eq valid some, champion?_of_unbeaten, head]
  intro challenger challengerMember incumbent incumbentMember
  exact not_prefers_among_identical (List.mem_filter.mp challengerMember).2
    (List.mem_filter.mp incumbentMember).2

/-! ## Along the chain -/

theorem exists_chain_eq_cons (scope : Scope) (start : ClassId) :
    ∃ rest, scope.chain start = start :: rest := by
  simp [chain, Store.classChain, Store.walkBound, walk, beforeRepeat]

/-- Resolution finds the first identical candidate of the class it starts from,
if no accepted list of the chain undercuts the query. -/
theorem resolve_eq_firstIdentical? {query : Query} {start : ClassId} {first : Candidate}
    (above : ∀ id ∈ scope.chain start, ∀ candidate, scope.Accepted query id candidate →
      ¬ scope.Undercuts query.types candidate)
    (found : scope.firstIdentical? query start = some first) :
    scope.resolve query start = some first := by
  obtain ⟨rest, chainEq⟩ := exists_chain_eq_cons scope start
  have represents : scope.candidateIn query start = some first :=
    candidateIn_eq_firstIdentical? (above start (by simp [chainEq])) found
  rw [resolve_eq_champion?, representatives, chainEq, List.filterMap_cons_some represents,
    champion?, champion_of_unbeaten]
  intro farther member
  obtain ⟨id, visited, keeps⟩ := List.mem_filterMap.mp member
  have notBelow := above id (by simp [chainEq, visited]) farther (candidateIn_accepted keeps)
  rw [displaces, (firstIdentical?_accepted found).2]
  exact eq_false_of_ne_true notBelow

theorem resolve_eq_firstIdentical?_of_acyclic (acyclic : scope.store.Acyclic)
    (object : scope.store.Bare .object) {query : Query} {start : ClassId} {first : Candidate}
    (found : scope.firstIdentical? query start = some first) :
    scope.resolve query start = some first :=
  resolve_eq_firstIdentical? (fun _ _ _ accepted => accepted.not_undercuts acyclic object) found

end MemberDispatch.Scope
