import MemberDispatch.Event

/-!
# Resolution along the class chain

Each class of the chain is represented by the candidate it keeps.  A farther
class displaces a nearer one only with a strictly more specific candidate.
-/

set_option autoImplicit false

namespace MemberDispatch.Scope

/-- The better of a nearer and a farther candidate. -/
def climb (scope : Scope) (best : Option Candidate) (challenger : Candidate) :
    Option Candidate :=
  match best with
  | none => some challenger
  | some incumbent =>
    if scope.store.moreSpecific challenger.realParams incumbent.realParams then
      some challenger
    else some incumbent

def resolve (scope : Scope) (query : Query) (start : ClassId) : Option Candidate :=
  ((scope.chain start).filterMap (scope.candidateIn query)).foldl scope.climb none

def resolutionEvents (scope : Scope) (query : Query) (start : ClassId) : List Event :=
  let kept := (scope.chain start).flatMap fun id =>
    (scope.keptIn query id).reverse.map fun candidate =>
      .candidateKept (scope.store.className id) (scope.signature candidate.member)
  match scope.resolve query start with
  | none => kept
  | some found =>
    kept ++ [.resolved (scope.signature found.member)
      (scope.classLabel found.member.declaringClass) query.mode]

/-! ## Members by name -/

def findSpecified (scope : Scope) (start : ClassId) (name : String) (types : List Ty) :
    Except Fault Member :=
  match scope.resolve ⟨name, types, .exact⟩ start with
  | some found => .ok found.member
  | none => .error (.specifiedNotFound name (scope.describe types))

/-- The most specific member that takes arguments of these types, if any. -/
def findCompatible? (scope : Scope) (start : ClassId) (name : String) (types : List Ty) :
    Option Member :=
  (scope.resolve ⟨name, types, .coercive⟩ start).map Candidate.member

def findCompatible (scope : Scope) (start : ClassId) (name : String) (types : List Ty) :
    Except Fault Member :=
  match scope.findCompatible? start name types with
  | some member => .ok member
  | none => .error (.noCompatible name (scope.describe types))

/-- For callers without a receiver: what is found has to be static. -/
def findStatic (scope : Scope) (start : ClassId) (name : String) (types : List Ty) :
    Except Fault Member :=
  match scope.findCompatible? start name types with
  | some member =>
    if member.isStatic then .ok member
    else .error (.instanceWithoutReceiver (scope.signature member))
  | none => .error (.noCompatibleStatic name (scope.describe types))

end MemberDispatch.Scope
