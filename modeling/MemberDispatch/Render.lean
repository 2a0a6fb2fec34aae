import MemberDispatch.Hierarchy.Walk
import MemberDispatch.Text.Removal

/-!
# Names of types and members

Types are written by their full names; diagnostics leave a configured package
out of each name.
-/

set_option autoImplicit false

namespace MemberDispatch

/-- How a class is written that nobody has defined. -/
def ClassId.unknownName (id : ClassId) : String :=
  "<unknown#" ++ toString id.index ++ ">"

namespace Store

def className (store : Store) (id : ClassId) : String :=
  match store.class? id with
  | some info => info.name
  | none => id.unknownName

def typeName (store : Store) : Ty → String
  | .void => "void"
  | .primitive kind => kind.name
  | .ofClass id => store.className id
  | .array component => store.typeName component ++ "[]"

def describeTypes (store : Store) (types : List Ty) (hidden : String) : String :=
  let names := types.map fun type => Text.remove hidden (store.typeName type)
  "(" ++ ", ".intercalate names ++ ")"

/-- A throwable of a class that carries its present name. -/
def throwableRecord (store : Store) (ident : Nat) (id : ClassId)
    (message : Option String) (stack : List StackFrame) : ThrowableRecord :=
  { ident, classId := id, className := store.className id, message, stack }

end Store

end MemberDispatch
