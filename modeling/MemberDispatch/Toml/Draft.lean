import MemberDispatch.Toml.Item

/-!
# Tables under construction

While a document is read, a table remembers how it came about, because that
decides what may still be added to it.  A header or a dotted key walks down
from a table, making the tables it does not find.
-/

set_option autoImplicit false

namespace MemberDispatch.Toml

inductive Origin where
  /-- It has a header of its own, or it is the root. -/
  | header
  /-- Only headers of tables below it have named it. -/
  | superHeader
  /-- Dotted keys have named it. -/
  | dotted
deriving DecidableEq, Inhabited

inductive Draft where
  | value (item : Item)
  | table (origin : Origin) (entries : List (String × Draft))
  /-- An array of tables, each with a header. -/
  | tables (elements : List (List (String × Draft)))
deriving Inhabited

abbrev DraftTable := List (String × Draft)

def replaceEntry (entries : DraftTable) (key : String) (draft : Draft) : DraftTable :=
  entries.map fun entry => if entry.1 = key then (key, draft) else entry

def removeEntry (entries : DraftTable) (key : String) : DraftTable :=
  entries.filter fun entry => entry.1 ≠ key

/-- Walks down `path` and changes the table at its end.  Tables on the way that
do not exist are made with `made`; a dotted key does not pass a table with a
header, and nothing passes a finished value.  In an array of tables the last
one is meant. -/
def descend (made : Origin) (change : Origin → DraftTable → Option DraftTable) :
    List String → Origin → DraftTable → Option DraftTable
  | [], origin, entries => change origin entries
  | key :: path, _, entries =>
    match entries.lookup key with
    | none =>
      (descend made change path made []).map fun child =>
        entries ++ [(key, .table made child)]
    | some (.value _) => none
    | some (.tables elements) =>
      match elements.getLast? with
      | none => none
      | some element =>
        (descend made change path .header element).map fun child =>
          replaceEntry entries key (.tables (elements.dropLast ++ [child]))
    | some (.table origin child) =>
      if made = .dotted ∧ origin = .header then none
      else
        (descend made change path origin child).map fun child =>
          replaceEntry entries key (.table origin child)

def addEntry (key : String) (draft : Draft) (entries : DraftTable) : Option DraftTable :=
  match entries.lookup key with
  | none => some (entries ++ [(key, draft)])
  | some _ => none

/-- Adds a value under a key of one part or more.  A dotted key ends in a table
that dotted keys have made, a plain one does not. -/
def addValue (origin : Origin) (path : List String) (key : String) (item : Item)
    (entries : DraftTable) : Option DraftTable :=
  descend .dotted
    (fun reached table =>
      if (reached == .dotted) == path.isEmpty then none
      else addEntry key (.value item) table)
    path origin entries

mutual

def Draft.item : Draft → Item
  | .value item => item
  | .table _ entries => .table (finishEntries entries)
  | .tables elements => .array (finishTables elements)

def finishEntries : List (String × Draft) → List (String × Item)
  | [] => []
  | (key, draft) :: rest => (key, draft.item) :: finishEntries rest

def finishTables : List (List (String × Draft)) → List Item
  | [] => []
  | entries :: rest => .table (finishEntries entries) :: finishTables rest

end

end MemberDispatch.Toml
