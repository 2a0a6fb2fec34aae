import MemberDispatch.Toml.Draft
import MemberDispatch.Toml.Moment
import MemberDispatch.Toml.Number
import MemberDispatch.Toml.Quoted

/-!
# Values

Strings, numbers, dates, booleans, arrays and inline tables.  Arrays and
inline tables may be nested up to the depth limit.
-/

set_option autoImplicit false

namespace MemberDispatch.Toml

/-- A dotted key, split into the way and its end. -/
structure KeyPath where
  path : List String
  last : String

def keyPath? (text : List Char) : Option (KeyPath × List Char) := do
  let (keys, rest) ← dottedKey? text
  let last ← keys.getLast?
  some (⟨keys.dropLast, last⟩, rest)

/-- A key, an equals sign and a value, with spaces around. -/
def keyValue? (value : Reader Item) (text : List Char) :
    Option ((KeyPath × Item) × List Char) := do
  let (key, rest) ← keyPath? text
  let rest ← word? "=" rest
  let (item, rest) ← value (skipSpaces rest)
  some ((key, item), skipSpaces rest)

/-- The elements of an array and its closing bracket.  A comma may follow the
last element, and lines may end anywhere between elements. -/
def elements? (value : Reader Item) : Nat → Reader (List Item)
  | 0, _ => none
  | bound + 1, text =>
    match skipLines text.length text with
    | ']' :: rest => some ([], rest)
    | text => do
      let (item, rest) ← value text
      match skipLines rest.length rest with
      | ']' :: rest => some ([item], rest)
      | ',' :: rest =>
        let (items, rest) ← elements? value bound rest
        some (item :: items, rest)
      | _ => none

/-- The entries of an inline table, of which there is at least one, and its
closing brace. -/
def inlineEntries? (value : Reader Item) : Nat → Reader (List (KeyPath × Item))
  | 0, _ => none
  | bound + 1, text => do
    let (entry, rest) ← keyValue? value text
    match rest with
    | '\x7d' :: rest => some ([entry], rest)
    | ',' :: rest =>
      let (entries, rest) ← inlineEntries? value bound rest
      some (entry :: entries, rest)
    | _ => none

def inlineTable? (entries : List (KeyPath × Item)) : Option Item :=
  (entries.foldlM
    (fun (table : DraftTable) entry =>
      addValue .header entry.1.path entry.1.last entry.2 table)
    []).map fun table => .table (finishEntries table)

def boolean? (text : List Char) : Option (Item × List Char) :=
  match word? "true" text, word? "false" text with
  | some rest, _ => some (.boolean true, rest)
  | none, some rest => some (.boolean false, rest)
  | none, none => none

def scalarValue? : Reader Item
  | [] => none
  | c :: rest =>
    if c = '"' ∨ c = '\'' then
      (string? (c :: rest)).map fun (text, rest) => (.text text, rest)
    else if c = 't' ∨ c = 'f' then boolean? (c :: rest)
    else
      match moment? (c :: rest) with
      | some moment => some moment
      | none => number? (c :: rest)

/-- A value in which arrays and inline tables are nested `depth` times at the
most. -/
def value? : Nat → Reader Item
  | 0, '[' :: _ => none
  | 0, '\x7b' :: _ => none
  | depth + 1, '[' :: rest =>
    (elements? (value? depth) (rest.length + 1) rest).map fun (items, rest) =>
      (.array items, rest)
  | depth + 1, '\x7b' :: rest =>
    match skipSpaces rest with
    | '\x7d' :: rest => some (.table [], rest)
    | rest => do
      let (entries, rest) ← inlineEntries? (value? depth) (rest.length + 1) rest
      let table ← inlineTable? entries
      some (table, rest)
  | _, text => scalarValue? text

def topValue? : Reader Item := value? (depthLimit - 1)

end MemberDispatch.Toml
