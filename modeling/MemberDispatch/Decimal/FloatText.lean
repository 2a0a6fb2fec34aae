import MemberDispatch.Decimal.Shortest

/-!
# Floating point numbers in messages

The shortest decimal that reads back, written without an exponent.
-/

set_option autoImplicit false

namespace MemberDispatch.Decimal

/-- The sign is written also before a zero; a NaN has none. -/
def floatText (value : Float) : String :=
  let bits := value.toBits.toNat
  let magnitude := bits % twoTo 63
  let sign := if bits = magnitude then "" else "-"
  if value.isNaN then "NaN"
  else if value.isInf then sign ++ "inf"
  else if magnitude = 0 then sign ++ "0.0"
  else sign ++ ((Binary.ofBits magnitude).shortest.trimmed 17).positional

end MemberDispatch.Decimal
