import MemberDispatch.Event

/-!
# The handler member of an object

A handler is the one instance member, not private, that the nearest class of
the object's chain with any such member declares.
-/

set_option autoImplicit false

namespace MemberDispatch.Scope

def handlersIn (scope : Scope) (id : ClassId) : List Member :=
  (scope.store.members id).filter fun member => !member.isPrivate && !member.isStatic

def handlerKind (scope : Scope) (id : ClassId) : HandlerKind :=
  if scope.store.isSubclass id scope.delegate then .delegate else .invocationHandler

/-- The nearest class of a chain that declares a possible handler, with all
that it declares. -/
def handlerLevel? (scope : Scope) (start : ClassId) : Option (ClassId × List Member) :=
  (scope.chain start).findSome? fun id =>
    match scope.handlersIn id with
    | [] => none
    | members => some (id, members)

def handlerOf (scope : Scope) (start : ClassId) : Except Fault (ClassId × Member) :=
  match scope.handlerLevel? start with
  | none => .error .noHandler
  | some (_, []) => .error .noHandler
  | some (id, [member]) => .ok (id, member)
  | some (_, first :: second :: _) =>
    .error (.ambiguousHandler (scope.handlerKind start)
      (scope.signature first) (scope.signature second))

/-- The handler member of a value; a value without a class has none. -/
def findHandler (scope : Scope) (handler : Value) : Except Fault Member :=
  match handler.classId? with
  | none => .error (.nullArgument 0)
  | some start => (scope.handlerOf start).map Prod.snd

def handlerEvents (scope : Scope) (handler : Value) : List Event :=
  match handler.classId? with
  | none => []
  | some start =>
    match scope.handlerOf start with
    | .error _ => []
    | .ok (id, member) =>
      [.handlerFound (scope.handlerKind start) (scope.store.className id)
        (scope.signature member)]

end MemberDispatch.Scope
