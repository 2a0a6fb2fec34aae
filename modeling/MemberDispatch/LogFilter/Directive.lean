import MemberDispatch.LogFilter.Verbosity

/-!
# Directives

A directive sets the verbosity of a target, or of everything that no other
directive names.  A list of directives is written with commas between its
pieces.
-/

set_option autoImplicit false

namespace MemberDispatch

structure Directive where
  /-- Nothing for the directive about everything else. -/
  target : Option String
  verbosity : Verbosity
deriving DecidableEq, Inhabited

namespace Directive

def splitAt (mark : Char) : List Char → List (List Char)
  | [] => [[]]
  | head :: rest =>
    if head = mark then [] :: splitAt mark rest
    else
      match splitAt mark rest with
      | [] => [[head]]
      | piece :: pieces => (head :: piece) :: pieces

/-- Letters and digits; beyond ASCII every character that is not blank passes for
a letter. -/
def startsTarget (c : Char) : Bool :=
  c.isAlphanum || c.toNat ≥ 0x80 && !Text.isBlank c || c = '-' || c = ':' || c = '_'

def ofWord (word : String) : Directive :=
  match Verbosity.ofText? word with
  | some verbosity => ⟨none, verbosity⟩
  | none => ⟨some word, .trace⟩

/-- What stands after the equals sign; nothing lets everything through. -/
def verbosityAfter? (text : String) : Option Verbosity :=
  if text = "" then some .trace else Verbosity.ofText? text

/-- Reads one piece.  It has to start like a target; the first equals sign ends
the target. -/
def ofPiece? (piece : List Char) : Option Directive :=
  match piece.head? with
  | none => none
  | some first =>
    if startsTarget first then
      match piece.dropWhile (· ≠ '=') with
      | [] => some (ofWord (String.ofList piece))
      | _ :: rest =>
        (verbosityAfter? (String.ofList rest)).map fun verbosity =>
          ⟨some (String.ofList (piece.takeWhile (· ≠ '='))), verbosity⟩
    else none

/-- Reads a list of directives in its order.  Empty pieces are left out, and
one piece that cannot be read makes the list invalid. -/
def listOf? (text : String) : Option (List Directive) :=
  ((splitAt ',' text.toList).filter fun piece => !piece.isEmpty).mapM ofPiece?

def text (directive : Directive) : String :=
  match directive.target with
  | none => directive.verbosity.name
  | some target => target ++ "=" ++ directive.verbosity.name

end Directive

end MemberDispatch
