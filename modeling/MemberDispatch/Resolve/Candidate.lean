import MemberDispatch.Resolve.Specificity
import MemberDispatch.Scope

/-!
# Candidates

A candidate is a member that accepts the types of a query, perhaps after a
leading context parameter that the caller leaves out.  Among the candidates
that one class declares, `Scope.candidateIn` keeps one.
-/

set_option autoImplicit false

namespace MemberDispatch

inductive MatchMode where
  /-- The types are those of the parameters, up to boxing. -/
  | exact
  /-- The types are those of arguments. -/
  | coercive
deriving DecidableEq, Inhabited

structure Query where
  name : String
  types : List Ty
  mode : MatchMode
deriving DecidableEq, Inhabited

structure Candidate where
  member : Member
  /-- The first parameter is the context, which the caller leaves out. -/
  takesContext : Bool
deriving Inhabited

/-- The parameters that the types of the query are matched against. -/
def Candidate.realParams (candidate : Candidate) : List Ty :=
  if candidate.takesContext then candidate.member.params.tail
  else candidate.member.params

namespace Scope

/-- Whether a leading context parameter has to be skipped for the counts to
agree; `none` where they do not agree either way. -/
def skipsContext? (scope : Scope) (declared supplied : List Ty) : Option Bool :=
  if declared.length = supplied.length then some false
  else if declared.length = supplied.length + 1 then
    match scope.context, declared.head? with
    | some context, some (.ofClass first) => if first = context then some true else none
    | _, _ => none
  else none

def admits (scope : Scope) : MatchMode → List Ty → List Ty → Bool
  | .exact, params, types => pairwise Ty.equivalent params types
  | .coercive, params, types => pairwise scope.store.accepts params types

def candidate? (scope : Scope) (query : Query) (member : Member) : Option Candidate :=
  match scope.skipsContext? member.params query.types with
  | none => none
  | some takesContext =>
    let candidate : Candidate := { member, takesContext }
    if member.name = query.name ∧ scope.admits query.mode candidate.realParams query.types then
      some candidate
    else none

/-- Whether a later member replaces the one kept so far.  The more specific
list wins; where neither is, a list identical to the types of the query. -/
def prefers (scope : Scope) (types : List Ty) (challenger incumbent : Candidate) : Bool :=
  if scope.store.moreSpecific challenger.realParams incumbent.realParams then true
  else if scope.store.moreSpecific incumbent.realParams challenger.realParams then false
  else challenger.realParams = types ∧ incumbent.realParams ≠ types

def candidatesIn (scope : Scope) (query : Query) (id : ClassId) : List Candidate :=
  (scope.store.members id).filterMap (scope.candidate? query)

/-- The candidates kept so far, the present one at the head. -/
def keep (scope : Scope) (types : List Ty) (kept : List Candidate) (challenger : Candidate) :
    List Candidate :=
  match kept with
  | [] => [challenger]
  | incumbent :: _ =>
    if scope.prefers types challenger incumbent then challenger :: kept else kept

/-- All candidates that were kept at some point, the last one at the head. -/
def keptIn (scope : Scope) (query : Query) (id : ClassId) : List Candidate :=
  (scope.candidatesIn query id).foldl (scope.keep query.types) []

def candidateIn (scope : Scope) (query : Query) (id : ClassId) : Option Candidate :=
  (scope.keptIn query id).head?

end Scope

end MemberDispatch
