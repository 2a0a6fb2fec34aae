/-!
# Removing a word from a text

Every occurrence is dropped, from left to right and without overlap.
-/

set_option autoImplicit false

namespace MemberDispatch.Text

/-- `skip` characters of an occurrence are still to be dropped. -/
def removeFrom (word : List Char) : Nat → List Char → List Char
  | _, [] => []
  | skip + 1, _ :: rest => removeFrom word skip rest
  | 0, head :: rest =>
    if word.isPrefixOf (head :: rest) then removeFrom word (word.length - 1) rest
    else head :: removeFrom word 0 rest

/-- Removes each occurrence of `word`; the empty word occurs nowhere. -/
def remove (word text : String) : String :=
  if word.isEmpty then text
  else String.ofList (removeFrom word.toList 0 text.toList)

end MemberDispatch.Text
