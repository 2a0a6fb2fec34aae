import MemberDispatch.Toml.Item
import MemberDispatch.Toml.Reader

/-!
# Dates and times

A date, a time of day, or both with an offset.  Only their extent and validity
matter here; an item keeps them as they were written.
-/

set_option autoImplicit false

namespace MemberDispatch.Toml

def fixedNumber? (width : Nat) (text : List Char) : Option (Nat × List Char) :=
  let digits := text.take width
  if digits.length = width ∧ digits.all Char.isDigit then
    some (digits.foldl (fun value c => value * 10 + (c.toNat - '0'.toNat)) 0, text.drop width)
  else none

def fixedNumberIn? (width low high : Nat) (text : List Char) : Option (Nat × List Char) :=
  match fixedNumber? width text with
  | some (value, rest) => if low ≤ value ∧ value ≤ high then some (value, rest) else none
  | none => none

def isLeapYear (year : Nat) : Bool :=
  year % 4 = 0 && (year % 100 ≠ 0 || year % 400 = 0)

def daysIn (year month : Nat) : Nat :=
  if month = 2 then if isLeapYear year then 29 else 28
  else if month = 4 ∨ month = 6 ∨ month = 9 ∨ month = 11 then 30
  else 31

/-- What stands after a date. -/
def date? (text : List Char) : Option (List Char) := do
  let (year, rest) ← fixedNumber? 4 text
  let rest ← word? "-" rest
  let (month, rest) ← fixedNumberIn? 2 1 12 rest
  let rest ← word? "-" rest
  let (_, rest) ← fixedNumberIn? 2 1 (daysIn year month) rest
  some rest

/-- Fractions of a second, where a point announces them. -/
def secondFraction? : List Char → Option (List Char)
  | '.' :: c :: rest => if c.isDigit then some (rest.dropWhile Char.isDigit) else none
  | '.' :: [] => none
  | text => some text

/-- What stands after a time of day. -/
def time? (text : List Char) : Option (List Char) := do
  let (_, rest) ← fixedNumberIn? 2 0 23 text
  let rest ← word? ":" rest
  let (_, rest) ← fixedNumberIn? 2 0 59 rest
  let rest ← word? ":" rest
  let (_, rest) ← fixedNumberIn? 2 0 60 rest
  secondFraction? rest

/-- What stands after the offset of a time, which may be left out. -/
def offset? : List Char → Option (List Char)
  | [] => some []
  | c :: rest =>
    if c = 'Z' ∨ c = 'z' then some rest
    else if c = '+' ∨ c = '-' then do
      let (_, rest) ← fixedNumberIn? 2 0 23 rest
      let rest ← word? ":" rest
      let (_, rest) ← fixedNumberIn? 2 0 59 rest
      some rest
    else some (c :: rest)

/-- What stands after the time that may follow a date.  A space without a time
behind it ends the date; a letter announces a time. -/
def timeOfDate? : List Char → Option (List Char)
  | [] => some []
  | c :: rest =>
    if c = 'T' ∨ c = 't' then (time? rest).bind offset?
    else if c = ' ' then
      match time? rest with
      | some after => offset? after
      | none => some (c :: rest)
    else some (c :: rest)

def momentEnd? (text : List Char) : Option (List Char) :=
  match date? text with
  | some rest => timeOfDate? rest
  | none => time? text

def moment? (text : List Char) : Option (Item × List Char) :=
  (momentEnd? text).map fun rest =>
    (.moment (.ofList (text.take (text.length - rest.length))), rest)

end MemberDispatch.Toml
