import MemberDispatch.Ty

/-!
# Reading the name of a type

A type is written as `void`, a primitive kind or a class name, followed by a
pair of brackets for each level of arrays.
-/

set_option autoImplicit false

namespace MemberDispatch.Ty

/-- An array of a type, nested `depth` times. -/
def nested : Nat → Ty → Ty
  | 0, type => type
  | depth + 1, type => array (nested depth type)

/-- The pairs of brackets at the end of a name, read backwards, and what stands
before them. -/
def takeBrackets : List Char → Nat × List Char
  | ']' :: '[' :: rest =>
    let (depth, base) := takeBrackets rest
    (depth + 1, base)
  | base => (0, base)

/-- A name without brackets; `classNamed?` knows the classes. -/
def ofBaseName? (classNamed? : String → Option ClassId) (name : String) : Option Ty :=
  if name = "void" then some void
  else
    match Primitive.ofName? name with
    | some kind => some (primitive kind)
    | none => (classNamed? name).map ofClass

def ofName? (classNamed? : String → Option ClassId) (name : String) : Option Ty :=
  let (depth, reversed) := takeBrackets name.toList.reverse
  (ofBaseName? classNamed? (String.ofList reversed.reverse)).map (nested depth)

end MemberDispatch.Ty
