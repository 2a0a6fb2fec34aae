import MemberDispatch.Proofs.Resolve.Candidates

/-!
# Members that suit a query

A member suits a query when it has the name and its real parameters take the
types one by one: up to boxing, or in the coercive mode by assignability too.
The candidates of a class are its members that suit.
-/

set_option autoImplicit false

namespace MemberDispatch.Scope

variable {scope : Scope} {query : Query} {id : ClassId} {member : Member} {real : List Ty}

/-- The parameters that so many types are matched against: all of them, or those
behind a leading context. -/
inductive RealParams (scope : Scope) (count : Nat) : List Ty → List Ty → Prop where
  | whole {params : List Ty} (counted : params.length = count) :
      RealParams scope count params params
  | behindContext {context : ClassId} {rest : List Ty}
      (convention : scope.context = some context) (counted : rest.length = count) :
      RealParams scope count (.ofClass context :: rest) rest

/-- When a parameter takes a type. -/
def Passes (scope : Scope) : MatchMode → Ty → Ty → Prop
  | .exact, param, type => param.equivalent type = true
  | .coercive, param, type =>
    param.equivalent type = true ∨ scope.store.isAssignable param type = true

structure Suits (scope : Scope) (query : Query) (member : Member) (real : List Ty) : Prop where
  named : member.name = query.name
  matched : scope.RealParams query.types.length member.params real
  passes : List.Forall₂ (scope.Passes query.mode) real query.types

theorem realParams_iff {supplied : List Ty} :
    (∃ takesContext, scope.skipsContext? member.params supplied = some takesContext ∧
        Candidate.realParams ⟨member, takesContext⟩ = real) ↔
      scope.RealParams supplied.length member.params real := by
  constructor
  · rintro ⟨takesContext, counted, rfl⟩
    rw [skipsContext?] at counted
    split at counted
    · cases counted
      exact .whole (by assumption)
    · split at counted
      · rename_i oneMore
        cases convention : scope.context with
        | none => simp [convention] at counted
        | some context =>
            cases params : member.params with
            | nil => simp [params] at oneMore
            | cons head rest =>
                cases head with
                | ofClass first =>
                    simp only [convention, params, List.head?_cons,
                      Option.ite_none_right_eq_some, Option.some.injEq] at counted
                    obtain ⟨rfl, rfl⟩ := counted
                    have behind : Candidate.realParams ⟨member, true⟩ = rest := by
                      simp [Candidate.realParams, params]
                    rw [behind]
                    exact .behindContext convention (by simpa [params] using oneMore)
                | void | primitive | array => simp [convention, params] at counted
      · cases counted
  · intro matched
    generalize paramsEq : member.params = params at matched
    cases matched with
    | whole counted =>
        exact ⟨false, by simp [skipsContext?, counted], by simp [Candidate.realParams, paramsEq]⟩
    | behindContext convention counted =>
        exact ⟨true, by simp [skipsContext?, convention, counted],
          by simp [Candidate.realParams, paramsEq]⟩

theorem admits_iff {mode : MatchMode} {params types : List Ty} :
    scope.admits mode params types = true ↔ List.Forall₂ (scope.Passes mode) params types := by
  cases mode with
  | exact => exact pairwise_iff
  | coercive =>
      simp only [admits, pairwise_iff, Store.accepts, Bool.or_eq_true]
      exact Iff.rfl

theorem exists_candidate?_iff :
    (∃ candidate, scope.candidate? query member = some candidate ∧
        candidate.realParams = real) ↔
      scope.Suits query member real := by
  constructor
  · rintro ⟨⟨_, takesContext⟩, accepted, rfl⟩
    obtain ⟨rfl, named, counted, admitted⟩ := candidate?_eq_some_iff.mp accepted
    exact ⟨named, realParams_iff.mp ⟨takesContext, counted, rfl⟩, admits_iff.mp admitted⟩
  · rintro ⟨named, matched, passes⟩
    obtain ⟨takesContext, counted, rfl⟩ := realParams_iff.mpr matched
    exact ⟨⟨member, takesContext⟩,
      candidate?_eq_some_iff.mpr ⟨rfl, named, counted, admits_iff.mpr passes⟩, rfl⟩

theorem Accepted.candidate?_eq {query : Query} {candidate : Candidate}
    (accepted : scope.Accepted query id candidate) :
    scope.candidate? query candidate.member = some candidate :=
  candidate?_eq_some_iff.mpr ⟨rfl, accepted.named, accepted.counted, accepted.admitted⟩

theorem accepted_of_candidate? {query : Query} {candidate : Candidate}
    (declared : member ∈ scope.store.members id)
    (accepted : scope.candidate? query member = some candidate) :
    scope.Accepted query id candidate :=
  mem_candidatesIn_iff.mp (List.mem_filterMap.mpr ⟨member, declared, accepted⟩)

theorem Accepted.suits {candidate : Candidate} (accepted : scope.Accepted query id candidate) :
    scope.Suits query candidate.member candidate.realParams :=
  exists_candidate?_iff.mp ⟨candidate, accepted.candidate?_eq, rfl⟩

theorem Suits.exists_accepted (suits : scope.Suits query member real)
    (declares : member ∈ scope.store.members id) :
    ∃ candidate, scope.Accepted query id candidate := by
  obtain ⟨candidate, accepted, -⟩ := exists_candidate?_iff.mpr suits
  exact ⟨candidate, accepted_of_candidate? declares accepted⟩

end MemberDispatch.Scope
