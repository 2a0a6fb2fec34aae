/-!
# Readers

A reader takes what it wants from the start of a text and gives back the rest.
Here are the readers of blanks, comments and line ends.
-/

set_option autoImplicit false

namespace MemberDispatch.Toml

abbrev Reader (α : Type) := List Char → Option (α × List Char)

def isSpace (c : Char) : Bool := c = ' ' || c = '\t'

/-- What may stand in a comment or a string: no control character other than
the tab. -/
def isPlain (c : Char) : Bool :=
  c = '\t' || (' ' ≤ c && c ≤ '~') || c.toNat ≥ 0x80

def skipSpaces (text : List Char) : List Char :=
  text.dropWhile isSpace

/-- A line feed, or a carriage return with its line feed. -/
def newline? : List Char → Option (List Char)
  | '\n' :: rest => some rest
  | '\r' :: '\n' :: rest => some rest
  | _ => none

def skipComment : List Char → List Char
  | '#' :: rest => rest.dropWhile isPlain
  | text => text

/-- The end of a line, or of the text. -/
def lineEnd? : List Char → Option (List Char)
  | [] => some []
  | text => newline? text

/-- Spaces and a comment before the end of a line. -/
def lineTail? (text : List Char) : Option (List Char) :=
  lineEnd? (skipComment (skipSpaces text))

/-- Skips spaces, comments and line ends, at most `bound` lines of them. -/
def skipLines : Nat → List Char → List Char
  | 0, text => text
  | bound + 1, text =>
    match newline? (skipComment (skipSpaces text)) with
    | some rest => skipLines bound rest
    | none => skipSpaces text

def word? (word : String) (text : List Char) : Option (List Char) :=
  if word.toList.isPrefixOf text then some (text.drop word.length) else none

end MemberDispatch.Toml
