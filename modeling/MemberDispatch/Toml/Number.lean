import MemberDispatch.Toml.Item
import MemberDispatch.Toml.Reader

/-!
# Numbers

Integers of 64 bits in four bases, and binary floating point.  Digits may be
parted by single underscores.
-/

set_option autoImplicit false

namespace MemberDispatch.Toml

def digitValue? (base : Nat) (c : Char) : Option Nat :=
  let value :=
    if '0' ≤ c ∧ c ≤ '9' then c.toNat - '0'.toNat
    else if 'a' ≤ c ∧ c ≤ 'z' then c.toNat - 'a'.toNat + 10
    else if 'A' ≤ c ∧ c ≤ 'Z' then c.toNat - 'A'.toNat + 10
    else base
  if value < base then some value else none

/-- Digits after a first one. -/
def moreDigits (base : Nat) : List Char → List Nat × List Char
  | '_' :: c :: rest =>
    match digitValue? base c with
    | some digit =>
      let (digits, rest) := moreDigits base rest
      (digit :: digits, rest)
    | none => ([], '_' :: c :: rest)
  | c :: rest =>
    match digitValue? base c with
    | some digit =>
      let (digits, rest) := moreDigits base rest
      (digit :: digits, rest)
    | none => ([], c :: rest)
  | [] => ([], [])

def digits? (base : Nat) : Reader (List Nat)
  | [] => none
  | c :: rest =>
    (digitValue? base c).map fun digit =>
      let (digits, rest) := moreDigits base rest
      (digit :: digits, rest)

/-- Decimal digits of which the first is not zero, or a single zero. -/
def plainDigits? : Reader (List Nat)
  | '0' :: rest => some ([0], rest)
  | text => digits? 10 text

def ofDigits (base : Nat) (digits : List Nat) : Nat :=
  digits.foldl (fun value digit => value * base + digit) 0

/-- A sign, true for a minus; a plus may be left out. -/
def sign : List Char → Bool × List Char
  | '-' :: rest => (true, rest)
  | '+' :: rest => (false, rest)
  | text => (false, text)

/-- The number as an integer of 64 bits. -/
def bounded? (value : Int) : Option Item :=
  if (Int64.ofInt value).toInt = value then some (.integer value) else none

def signed (negative : Bool) (value : Nat) : Int :=
  if negative then -(value : Int) else value

/-! ## Floating point -/

def floatInfinity : Float := Float.ofBits 0x7ff0000000000000
def floatNaN : Float := Float.ofBits 0x7ff8000000000000

/-- The nearest floating point number to digits times a power of ten.  A
number past the range of exponents is infinite or zero whatever its digits. -/
def nearestFloat (digits : List Nat) (exponent : Int) : Float :=
  let mantissa := ofDigits 10 digits
  let magnitude := exponent + (Nat.toDigits 10 mantissa).length
  if mantissa = 0 then 0
  else if magnitude > 400 then floatInfinity
  else if magnitude < -400 then 0
  else Float.ofScientific mantissa (exponent < 0) exponent.natAbs

/-- A point and the digits after it. -/
def fraction? : Reader (List Nat)
  | '.' :: rest => digits? 10 rest
  | text => some ([], text)

/-- A power of ten; none is the zeroth. -/
def exponent? : Reader Int
  | [] => some (0, [])
  | c :: rest =>
    if c = 'e' ∨ c = 'E' then
      let (negative, rest) := sign rest
      (digits? 10 rest).map fun (digits, rest) => (signed negative (ofDigits 10 digits), rest)
    else some (0, c :: rest)

/-- A sign that a float keeps also at zero. -/
def withSign (negative : Bool) (value : Float) : Float :=
  if negative then -value else value

def infinityOrNaN? (negative : Bool) (text : List Char) : Option (Item × List Char) :=
  match word? "inf" text, word? "nan" text with
  | some rest, _ => some (.float (withSign negative floatInfinity), rest)
  | none, some rest => some (.float (withSign negative floatNaN), rest)
  | none, none => none

/-- Whether a float goes on after its whole digits. -/
def floatFollows : List Char → Bool
  | c :: _ => c = '.' || c = 'e' || c = 'E'
  | [] => false

/-- A decimal integer, or a float with a point or an exponent.  A float too
large to be finite is refused unless it is negative. -/
def decimal? (negative : Bool) (text : List Char) : Option (Item × List Char) := do
  let (whole, rest) ← plainDigits? text
  if floatFollows rest then
    let (decimals, rest) ← fraction? rest
    let (power, rest) ← exponent? rest
    let value := withSign negative (nearestFloat (whole ++ decimals) (power - decimals.length))
    if value == floatInfinity then none else some (.float value, rest)
  else
    let item ← bounded? (signed negative (ofDigits 10 whole))
    some (item, rest)

/-- An integer in another base, after the mark of the base. -/
def based? (base : Nat) (text : List Char) : Option (Item × List Char) := do
  let (digits, rest) ← digits? base text
  let item ← bounded? (ofDigits base digits)
  some (item, rest)

def number? : Reader Item
  | '0' :: 'x' :: rest => based? 16 rest
  | '0' :: 'o' :: rest => based? 8 rest
  | '0' :: 'b' :: rest => based? 2 rest
  | text =>
    let (negative, rest) := sign text
    match infinityOrNaN? negative rest with
    | some special => some special
    | none => decimal? negative rest

end MemberDispatch.Toml
