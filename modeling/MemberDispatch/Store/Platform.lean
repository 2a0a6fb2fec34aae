import MemberDispatch.Store.Basic

/-!
# The platform

The classes that every store starts with, in the order of their numbers.  The
numbers are those that the constants of `ClassId` and the wrapper table state.
-/

set_option autoImplicit false

namespace MemberDispatch.Store

/-- A platform class: no members, open to relaxation, not generated. -/
def platformClass (name : String) (superclass : Option ClassId)
    (interfaces : List ClassId) : ClassDef :=
  { name, kind := .concrete, superclass, interfaces, members := [],
    synthetic := false, restricted := false }

def platformInterface (name : String) : ClassDef :=
  { platformClass name none [] with kind := .interface }

/-- The wrapper class of a kind.  Numeric wrappers are numbers. -/
def wrapperClass (kind : Primitive) : ClassDef :=
  let superclass : ClassId :=
    match kind with
    | .boolean => .object
    | .char => .object
    | _ => .number
  platformClass kind.wrapperName (some superclass) [.serializable, .comparable]

def platformClasses : List ClassDef :=
  [platformClass "java.lang.Object" none [],
    platformInterface "java.io.Serializable",
    platformInterface "java.lang.Cloneable",
    platformInterface "java.lang.Comparable",
    platformInterface "java.lang.CharSequence",
    platformClass "java.lang.String" (some .object)
      [.serializable, .comparable, .charSequence],
    platformClass "java.lang.Class" (some .object) [.serializable],
    platformClass "java.lang.Number" (some .object) [.serializable]]
  ++ Primitive.all.map wrapperClass
  ++ [platformClass "java.lang.Throwable" (some .object) [.serializable],
    platformClass "java.lang.Error" (some .throwable) [],
    platformClass "java.lang.Exception" (some .throwable) [],
    platformClass "java.lang.RuntimeException" (some .exception) [],
    platformClass "java.lang.IllegalArgumentException" (some .runtimeException) [],
    platformClass "java.lang.IllegalStateException" (some .runtimeException) [],
    platformClass "java.lang.AbstractMethodError" (some .error) [],
    platformClass "java.io.IOException" (some .exception) [],
    platformClass "stubble.Invocation" (some .object) [],
    platformInterface "stubble.Delegate"]

def platform : Store :=
  platformClasses.foldl (fun store definition => (store.add definition).2) empty

end MemberDispatch.Store
