/-!
# Primitive kinds

The eight primitive kinds of a member's parameters, the name each is written
with, and the widening relation between them.  Widening is the only conversion
that binding applies to a primitive argument.
-/

set_option autoImplicit false

namespace MemberDispatch

inductive Primitive where
  | boolean
  | byte
  | short
  | char
  | int
  | long
  | float
  | double
deriving DecidableEq, Inhabited

namespace Primitive

/-- The kinds in the order in which their wrapper classes are numbered. -/
def all : List Primitive :=
  [boolean, byte, short, char, int, long, float, double]

def name : Primitive → String
  | boolean => "boolean"
  | byte => "byte"
  | short => "short"
  | char => "char"
  | int => "int"
  | long => "long"
  | float => "float"
  | double => "double"

def wrapperName : Primitive → String
  | boolean => "java.lang.Boolean"
  | byte => "java.lang.Byte"
  | short => "java.lang.Short"
  | char => "java.lang.Character"
  | int => "java.lang.Integer"
  | long => "java.lang.Long"
  | float => "java.lang.Float"
  | double => "java.lang.Double"

def ofName? (text : String) : Option Primitive :=
  all.find? fun kind => kind.name = text

/-- The kinds a kind widens to, itself left out.  Nothing widens to `byte`,
`char` or `boolean`. -/
def widerThan : Primitive → List Primitive
  | boolean => []
  | byte => [short, int, long, float, double]
  | short => [int, long, float, double]
  | char => [int, long, float, double]
  | int => [long, float, double]
  | long => [float, double]
  | float => [double]
  | double => []

def widensTo (source target : Primitive) : Bool :=
  source = target || source.widerThan.contains target

theorem mem_all (kind : Primitive) : kind ∈ all := by
  cases kind <;> decide

theorem widensTo_refl (kind : Primitive) : kind.widensTo kind = true := by
  simp [widensTo]

end Primitive

end MemberDispatch
