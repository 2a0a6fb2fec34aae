import MemberDispatch.Hierarchy.Walk

/-!
# The type behind a generated class

A synthetic class stands in for its superclass, or, where it extends the root
directly, for its first interface.
-/

set_option autoImplicit false

namespace MemberDispatch.Store

/-- The class that a synthetic class stands in for, if it names one. -/
def unwrapStep? (store : Store) (id : ClassId) : Option ClassId :=
  match store.class? id with
  | none => none
  | some info =>
    if info.synthetic then
      match info.superclass with
      | some superclass =>
        if superclass = .object then info.interfaces.head? else some superclass
      | none => info.interfaces.head?
    else none

/-- The last class of the unwrap walk from `current`, or `start` if the walk
does not end within `bound` steps. -/
def unwrapWithin (store : Store) (start : ClassId) : Nat → ClassId → ClassId
  | 0, _ => start
  | bound + 1, current =>
    match store.unwrapStep? current with
    | none => current
    | some next => store.unwrapWithin start bound next

/-- Longer walks count as cyclic. -/
def unwrapBound : Nat := 64

/-- The first class on the unwrap walk that stands in for no other. -/
def declaredType (store : Store) (id : ClassId) : ClassId :=
  store.unwrapWithin id unwrapBound id

end MemberDispatch.Store
