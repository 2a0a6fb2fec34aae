/-!
# TOML documents

A document is a table: keys with their items, in document order.  Dates and
times keep the text they were written with.  Whether two documents are the
same is decided item by item, and the kernel can carry the decision out.
-/

set_option autoImplicit false

namespace MemberDispatch.Toml

inductive Item where
  | text (value : String)
  | integer (value : Int)
  | float (value : Float)
  | boolean (value : Bool)
  | moment (written : String)
  | array (items : List Item)
  | table (entries : List (String × Item))
deriving Inhabited

/-- No key occurs twice in a table that was read. -/
abbrev Table := List (String × Item)

/-! ## Equal items -/

mutual

def Item.same : Item → Item → Bool
  | .text value, .text other => value = other
  | .integer value, .integer other => value = other
  | .float value, .float other => value = other
  | .boolean value, .boolean other => value = other
  | .moment written, .moment other => written = other
  | .array items, .array others => sameItems items others
  | .table entries, .table others => sameEntries entries others
  | _, _ => false

def sameItems : List Item → List Item → Bool
  | [], [] => true
  | item :: items, other :: others => item.same other && sameItems items others
  | _, _ => false

def sameEntries : List (String × Item) → List (String × Item) → Bool
  | [], [] => true
  | (key, item) :: entries, (otherKey, other) :: others =>
    key = otherKey && item.same other && sameEntries entries others
  | _, _ => false

end

mutual

theorem Item.same_iff (item other : Item) : item.same other = true ↔ item = other := by
  cases item <;> cases other <;> simp [Item.same, sameItems_iff, sameEntries_iff]

theorem sameItems_iff (items others : List Item) :
    sameItems items others = true ↔ items = others := by
  cases items <;> cases others <;> simp [sameItems, Item.same_iff, sameItems_iff]

theorem sameEntries_iff (entries others : List (String × Item)) :
    sameEntries entries others = true ↔ entries = others := by
  cases entries <;> cases others <;>
    simp [sameEntries, Item.same_iff, sameEntries_iff, Prod.ext_iff]

end

instance : DecidableEq Item := fun item other => decidable_of_iff _ (Item.same_iff item other)

end MemberDispatch.Toml
