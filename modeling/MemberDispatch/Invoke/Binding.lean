import MemberDispatch.Fault
import MemberDispatch.Hierarchy.Subtyping
import MemberDispatch.Value.Widening

/-!
# Binding a receiver and arguments

The checks before a member runs, in their order: the receiver, the number of
arguments, then the arguments from left to right.  Each check has its own
fault, and the first that fails decides.
-/

set_option autoImplicit false

namespace MemberDispatch.Store

structure BoundReceiver where
  value : Value
  classId : ClassId
deriving Inhabited

/-- The receiver of a call; a static member has none, whatever the target. -/
def bindReceiver (store : Store) (target : Option Value) (member : Member) :
    Except BindingFault (Option BoundReceiver) :=
  if member.isStatic then .ok none
  else
    match target with
    | none => .error .noReceiver
    | some .null => .error .noReceiver
    | some value =>
      match value.classId? with
      | none => .error .receiverWithoutClass
      | some id =>
        if store.isSubclass id member.declaringClass then .ok (some ⟨value, id⟩)
        else .error .notAnInstance

/-- An argument as a parameter receives it: widened to a primitive kind, and
unchanged where its class is assignable to a class or array. -/
def bindValue (store : Store) : Ty → Value → Option Value
  | .void, _ => none
  | .primitive kind, value => value.widenTo kind
  | .ofClass _, .null => some .null
  | .array _, .null => some .null
  | param, value =>
    match value.classId? with
    | none => none
    | some id => if store.isAssignable param (.ofClass id) then some value else none

def bindFrom (store : Store) : Nat → List Ty → List Value → Except BindingFault (List Value)
  | position, param :: params, value :: values =>
    match store.bindValue param value with
    | none => .error (.mismatchAt position)
    | some bound => (store.bindFrom (position + 1) params values).map (bound :: ·)
  | _, _, _ => .ok []

def bindArguments (store : Store) (params : List Ty) (args : List Value) :
    Except BindingFault (List Value) :=
  if params.length = args.length then store.bindFrom 0 params args
  else .error (.argumentCount args.length params.length)

/-! ## Overrides -/

/-- A member that a class declares in the place of `member`. -/
def overrideIn? (store : Store) (member : Member) (id : ClassId) : Option Member :=
  (store.members id).find? fun other =>
    !other.isStatic && !other.isPrivate && other.name = member.name &&
      other.params = member.params

/-- Longer superclass chains are not searched to their end. -/
def overrideBound : Nat := 256

/-- The classes that may override a member for a receiver: from the receiver's
class upwards, the member's own class left out. -/
def overridingClasses (store : Store) (receiver : ClassId) (member : Member) : List ClassId :=
  (walk store.superclass? overrideBound receiver).takeWhile fun id =>
    id ≠ member.declaringClass

/-- The member that runs for a receiver: the nearest override, or the member
itself.  A private member is never overridden. -/
def selectOverride (store : Store) (receiver : ClassId) (member : Member) : Member :=
  if member.isPrivate then member
  else ((store.overridingClasses receiver member).findSome? (store.overrideIn? member)).getD member

/-! ## Bound calls -/

structure BoundCall where
  receiver : Option BoundReceiver
  args : List Value
  implementation : Member
deriving Inhabited

def bindCall (store : Store) (target : Option Value) (member : Member) (args : List Value) :
    Except BindingFault BoundCall :=
  match store.bindReceiver target member with
  | .error fault => .error fault
  | .ok receiver =>
    match store.bindArguments member.params args with
    | .error fault => .error fault
    | .ok args =>
      let implementation :=
        match receiver with
        | none => member
        | some bound => store.selectOverride bound.classId member
      .ok { receiver, args, implementation }

end MemberDispatch.Store
