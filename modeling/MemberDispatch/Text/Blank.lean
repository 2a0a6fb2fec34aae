/-!
# Blank characters

The characters with the property White_Space, and texts without them at
either end.
-/

set_option autoImplicit false

namespace MemberDispatch.Text

/-- The White_Space property, twenty-five characters in all. -/
def isBlank (c : Char) : Bool :=
  let n := c.toNat
  (0x9 ≤ n && n ≤ 0xD) || n == 0x20 || n == 0x85 || n == 0xA0 || n == 0x1680 ||
    (0x2000 ≤ n && n ≤ 0x200A) || n == 0x2028 || n == 0x2029 || n == 0x202F ||
    n == 0x205F || n == 0x3000

theorem isBlank_of_isWhitespace {c : Char} (white : c.isWhitespace = true) :
    isBlank c = true := by
  simp only [Char.isWhitespace, Bool.or_eq_true, decide_eq_true_eq] at white
  rcases white with ((h | h) | h) | h <;> subst h <;> decide

def trimmedChars (text : List Char) : List Char :=
  ((text.dropWhile isBlank).reverse.dropWhile isBlank).reverse

def trim (text : String) : String :=
  String.ofList (trimmedChars text.toList)

/-- Capital letters of ASCII become small; all else stays. -/
def lowerCase (text : String) : String :=
  String.ofList (text.toList.map Char.toLower)

end MemberDispatch.Text
