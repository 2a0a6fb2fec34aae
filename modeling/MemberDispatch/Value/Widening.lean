import MemberDispatch.Value

/-!
# Widening of primitive values

A value of a primitive kind converts to every kind that its own kind widens
to.  The integral kinds, characters included, pass through a 64-bit integer;
a character stands for its code point.
-/

set_option autoImplicit false

namespace MemberDispatch.Value

/-- The integer an integral value or a character denotes. -/
def integral? : Value → Option Int64
  | byte value => some value.toInt64
  | short value => some value.toInt64
  | char value => some (Int64.ofNat value.toNat)
  | int value => some value.toInt64
  | long value => some value
  | _ => none

/-- The integer as a value of the kind. -/
def ofIntegral (value : Int64) : Primitive → Option Value
  | .short => some (short value.toInt16)
  | .int => some (int value.toInt32)
  | .long => some (long value)
  | .float => some (float value.toFloat32)
  | .double => some (double value.toFloat)
  | _ => none

/-- Unboxes the value and widens it to `target`, where the kinds allow it.  A
value already of the kind is passed on as it is. -/
def widenTo (value : Value) (target : Primitive) : Option Value :=
  match value.primitive? with
  | none => none
  | some source =>
    if source = target then some value
    else if source.widensTo target then
      match value with
      | float single => some (double single.toFloat)
      | _ => value.integral?.bind fun integer => ofIntegral integer target
    else none

theorem widenTo_self {value : Value} {kind : Primitive}
    (primitive : value.primitive? = some kind) :
    value.widenTo kind = some value := by
  simp [widenTo, primitive]

end MemberDispatch.Value
