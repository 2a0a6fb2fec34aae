/-!
# Shortest decimals

The shortest decimal that reads back as a given binary floating point number.
A number is taken apart into `mantissa * 2 ^ exponent`; every real number of an
interval around it rounds to it, ends included where the mantissa is even.  For
each count of digits, the two decimals next to the number are tested against
the interval, and the first count with a hit wins.
-/

set_option autoImplicit false

namespace MemberDispatch.Decimal

def twoTo (power : Nat) : Nat := Nat.pow 2 power
def tenTo (power : Nat) : Nat := Nat.pow 10 power

/-- A positive binary number. -/
structure Binary where
  mantissa : Nat
  exponent : Int
  /-- The neighbour below is only half as far away as the one above. -/
  narrowBelow : Bool
deriving DecidableEq, Inhabited

/-- The finite positive number with the bits of a double, its sign left out. -/
def Binary.ofBits (bits : Nat) : Binary :=
  let fraction : Nat := bits % twoTo 52
  let biased : Nat := bits / twoTo 52 % twoTo 11
  if biased = 0 then ⟨fraction, -1074, false⟩
  else ⟨fraction + twoTo 52, (biased : Int) - 1075, fraction = 0 && biased > 1⟩

structure Interval where
  low : Nat
  value : Nat
  high : Nat
  /-- The unit is the reciprocal of this number. -/
  scale : Nat
  closed : Bool

def Binary.interval (binary : Binary) : Interval :=
  let shift := (2 - binary.exponent).toNat
  let unit := twoTo (binary.exponent + shift).toNat
  { low := binary.mantissa * unit - (if binary.narrowBelow then unit / 4 else unit / 2)
    value := binary.mantissa * unit
    high := binary.mantissa * unit + unit / 2
    scale := twoTo shift
    closed := binary.mantissa % 2 = 0 }

/-- Digits, read as a whole number, times a power of ten. -/
structure Digits where
  digits : Nat
  power : Int
deriving DecidableEq, Inhabited

/-- The place of the first digit: the least `e` with the number below
`10 ^ e`. -/
def Interval.magnitude (interval : Interval) : Int :=
  let below (e : Int) : Bool :=
    interval.value * tenTo (-e).toNat < interval.scale * tenTo e.toNat
  let exponents := (List.range 700).map fun (n : Nat) => (n : Int) - 350
  (exponents.find? below).getD 350

def Interval.contains (interval : Interval) (decimal : Digits) : Bool :=
  let point := decimal.digits * tenTo decimal.power.toNat * interval.scale
  let factor := tenTo (-decimal.power).toNat
  if interval.closed then
    interval.low * factor ≤ point && point ≤ interval.high * factor
  else
    interval.low * factor < point && point < interval.high * factor

/-- The decimal next to the number on the grid of a power of ten, if one of the
two neighbours lies in the interval.  Of two the nearer is taken, and the upper
one where both are as near. -/
def Interval.onGrid? (interval : Interval) (power : Int) : Option Digits :=
  let numerator := interval.value * tenTo (-power).toNat
  let denominator := interval.scale * tenTo power.toNat
  let below : Digits := ⟨numerator / denominator, power⟩
  let above : Digits := ⟨numerator / denominator + 1, power⟩
  let upper := denominator ≤ 2 * (numerator % denominator)
  match interval.contains below, interval.contains above with
  | true, true => some (if upper then above else below)
  | true, false => some below
  | false, true => some above
  | false, false => none

/-- Seventeen digits always suffice. -/
def Binary.shortest (binary : Binary) : Digits :=
  let interval := binary.interval
  let magnitude := interval.magnitude
  let powers := (List.range 17).map fun (n : Nat) => magnitude - (n : Int) - 1
  (powers.findSome? interval.onGrid?).getD ⟨0, 0⟩

def Digits.trimmed (decimal : Digits) : Nat → Digits
  | 0 => decimal
  | bound + 1 =>
    if decimal.digits ≠ 0 ∧ decimal.digits % 10 = 0 then
      Digits.trimmed ⟨decimal.digits / 10, decimal.power + 1⟩ bound
    else decimal

/-- Written without an exponent; a whole number ends in a point and a zero. -/
def Digits.positional (decimal : Digits) : String :=
  let digits := Nat.toDigits 10 decimal.digits
  let zeros (count : Nat) : List Char := List.replicate count '0'
  if 0 ≤ decimal.power then
    String.ofList (digits ++ zeros decimal.power.toNat ++ ['.', '0'])
  else
    let places := (-decimal.power).toNat
    let padded := zeros (places + 1 - digits.length) ++ digits
    let whole := padded.length - places
    String.ofList (padded.take whole ++ ['.'] ++ padded.drop whole)

end MemberDispatch.Decimal
