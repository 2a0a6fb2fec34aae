import MemberDispatch.Ty

/-!
# Values

What crosses the boundary of a call.  A primitive value is boxed: its class is
the wrapper of its kind.  A type token is an instance of the platform's class
for types.  `null` and `void` have no class.
-/

set_option autoImplicit false

namespace MemberDispatch

structure InvocationContext where
  /-- The intercepted member, as the caller writes it. -/
  invokedMember : String
  /-- The position of the call among those dispatched to the handler, from one. -/
  count : Nat
deriving DecidableEq, Inhabited

/-- Two references are the same object when their numbers agree. -/
structure ObjectRef where
  ident : Nat
  classId : ClassId
  context : Option InvocationContext
deriving DecidableEq, Inhabited

inductive Value where
  | null
  | void
  | boolean (value : Bool)
  | byte (value : Int8)
  | short (value : Int16)
  | char (value : Char)
  | int (value : Int32)
  | long (value : Int64)
  | float (value : Float32)
  | double (value : Float)
  | text (value : String)
  | object (reference : ObjectRef)
  | typeToken (type : Ty)
deriving Inhabited

namespace Value

def isNull : Value → Bool
  | null => true
  | _ => false

def primitive? : Value → Option Primitive
  | boolean _ => some .boolean
  | byte _ => some .byte
  | short _ => some .short
  | char _ => some .char
  | int _ => some .int
  | long _ => some .long
  | float _ => some .float
  | double _ => some .double
  | _ => none

def classId? : Value → Option ClassId
  | null => none
  | void => none
  | boolean _ => some Primitive.boolean.wrapper
  | byte _ => some Primitive.byte.wrapper
  | short _ => some Primitive.short.wrapper
  | char _ => some Primitive.char.wrapper
  | int _ => some Primitive.int.wrapper
  | long _ => some Primitive.long.wrapper
  | float _ => some Primitive.float.wrapper
  | double _ => some Primitive.double.wrapper
  | text _ => some .string
  | object reference => some reference.classId
  | typeToken _ => some .typeToken

theorem classId?_of_primitive? {value : Value} {kind : Primitive}
    (primitive : value.primitive? = some kind) :
    value.classId? = some kind.wrapper := by
  cases value <;> simp_all [primitive?, classId?]

/-- Equality of values of one sort: floating point by its number, so that a NaN
differs from itself and the two zeros agree, and objects by identity. -/
def agrees : Value → Value → Bool
  | null, null => true
  | void, void => true
  | boolean a, boolean b => a == b
  | byte a, byte b => a == b
  | short a, short b => a == b
  | char a, char b => a == b
  | int a, int b => a == b
  | long a, long b => a == b
  | float a, float b => a == b
  | double a, double b => a == b
  | text a, text b => a == b
  | object a, object b => a.ident == b.ident
  | typeToken a, typeToken b => a == b
  | _, _ => false

end Value

end MemberDispatch
