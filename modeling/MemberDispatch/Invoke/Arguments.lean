import MemberDispatch.Fault
import MemberDispatch.Hierarchy.DeclaredType
import MemberDispatch.Value

/-!
# Types of argument values

The types that a call by value is resolved with.  A type token states the type
of its position and is passed as `null`; any other value has the type that its
class stands in for.
-/

set_option autoImplicit false

namespace MemberDispatch

/-- Arguments for matching, by their types, and for binding, by their values. -/
structure TypedArguments where
  types : List Ty
  values : List Value
deriving Inhabited

namespace Store

/-- The type and the value that one argument contributes; `null` and `void`
carry no type. -/
def typeArgument? (store : Store) : Value → Option (Ty × Value)
  | .typeToken type => some (type, .null)
  | value => value.classId?.map fun id => (.ofClass (store.declaredType id), value)

def typeArgumentsFrom (store : Store) : Nat → List Value → Except Fault TypedArguments
  | _, [] => .ok ⟨[], []⟩
  | position, value :: rest =>
    match store.typeArgument? value with
    | none => .error (.nullArgument position)
    | some (type, passed) =>
      (store.typeArgumentsFrom (position + 1) rest).map fun typed =>
        ⟨type :: typed.types, passed :: typed.values⟩

def typeArguments (store : Store) (args : List Value) : Except Fault TypedArguments :=
  store.typeArgumentsFrom 0 args

end Store

/-- The arguments of a member that takes a context before them. -/
def withLeadingArgument (args : List Value) (first : Value) : List Value :=
  first :: args

end MemberDispatch
