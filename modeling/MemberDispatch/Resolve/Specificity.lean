import MemberDispatch.Hierarchy.Subtyping

/-!
# Compatibility and specificity

Whether a parameter accepts an argument of a type, and which of two parameter
lists is the more specific one.  Specificity does not tell a primitive kind
from its wrapper.
-/

set_option autoImplicit false

namespace MemberDispatch

/-- A relation holds position by position between lists of equal length. -/
def pairwise {α β : Type} (relation : α → β → Bool) : List α → List β → Bool
  | [], [] => true
  | first :: firsts, second :: seconds =>
    relation first second && pairwise relation firsts seconds
  | _, _ => false

namespace Store

/-- An equivalent type, or one that is assignable to the parameter. -/
def accepts (store : Store) (param argument : Ty) : Bool :=
  param.equivalent argument || store.isAssignable param argument

/-- Compares boxed types from left to right; `differs` tells whether a
position before has differed. -/
def specificityFrom (store : Store) : Bool → List Ty → List Ty → Bool
  | differs, [], [] => differs
  | differs, current :: currents, previous :: previouses =>
    if current.boxed = previous.boxed then
      store.specificityFrom differs currents previouses
    else
      store.isAssignable previous.boxed current.boxed &&
        store.specificityFrom true currents previouses
  | _, _, _ => false

/-- Whether `current` is strictly more specific than `previous`: of the same
length, assignable at each position where they differ, and different at one
position at least. -/
def moreSpecific (store : Store) (current previous : List Ty) : Bool :=
  store.specificityFrom false current previous

end Store

end MemberDispatch
