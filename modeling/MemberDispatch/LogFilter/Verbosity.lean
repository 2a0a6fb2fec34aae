import MemberDispatch.Text.Blank

/-!
# Verbosity

How much is let through, from nothing to everything, and how it is written.
-/

set_option autoImplicit false

namespace MemberDispatch

inductive Verbosity where
  | off
  | error
  | warn
  | info
  | debug
  | trace
deriving DecidableEq, Inhabited

namespace Verbosity

/-- Each verbosity stands at the place of its number. -/
def all : List Verbosity :=
  [off, error, warn, info, debug, trace]

def name : Verbosity → String
  | off => "off"
  | error => "error"
  | warn => "warn"
  | info => "info"
  | debug => "debug"
  | trace => "trace"

/-- A decimal number, perhaps after a plus sign. -/
def numeral? (text : List Char) : Option Nat :=
  let digits :=
    match text with
    | '+' :: rest => rest
    | other => other
  if digits.isEmpty || !digits.all Char.isDigit then none
  else some (digits.foldl (fun value digit => value * 10 + (digit.toNat - '0'.toNat)) 0)

/-- A name in any case, or a number. -/
def ofText? (text : String) : Option Verbosity :=
  match numeral? text.toList with
  | some number => all[number]?
  | none => all.find? fun verbosity => verbosity.name = Text.lowerCase text

end Verbosity

end MemberDispatch
