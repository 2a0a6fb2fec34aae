import MemberDispatch.Hierarchy.Walk

/-!
# Public members

A public member is looked up with its exact parameter types: on the class and
its superclasses, the root included, and after them on their interfaces in
breadth-first order.  A superclass that nobody has defined ends the lookup.
-/

set_option autoImplicit false

namespace MemberDispatch.Store

/-- The interfaces on the frontier that are not seen yet, and those they
extend, level by level. -/
def interfacesFrom (store : Store) : Nat → List ClassId → List ClassId → List ClassId
  | 0, _, _ => []
  | levels + 1, seen, frontier =>
    let fresh := (frontier.filter fun id => !seen.contains id).eraseDups
    match fresh with
    | [] => []
    | _ =>
      fresh ++
        store.interfacesFrom levels (fresh ++ seen) (fresh.flatMap store.interfaces)

/-- All classes that a public lookup visits, in its order. -/
def publicOrder (store : Store) (start : ClassId) : List ClassId :=
  let line := store.superclassChain start
  if line.all fun id => (store.class? id).isSome then
    line ++ store.interfacesFrom store.walkBound line (line.flatMap store.interfaces)
  else line

/-- The first public member of the name and types that a class declares. -/
def publicMember? (store : Store) (name : String) (types : List Ty) (id : ClassId) :
    Option Member :=
  (store.members id).find? fun member =>
    member.isPublic && member.name = name && member.params = types

def findPublic? (store : Store) (start : ClassId) (name : String) (types : List Ty) :
    Option Member :=
  (store.publicOrder start).findSome? (store.publicMember? name types)

end MemberDispatch.Store
