import MemberDispatch.Toml.Value

/-!
# Documents

A document is read line by line.  Values belong to the table of the header
above them; the table is put into the document when the next header comes, so
the order of the document is that of the headers.
-/

set_option autoImplicit false

namespace MemberDispatch.Toml

/-- The header of the table that is being filled. -/
inductive Heading where
  | root
  | table (path : List String) (key : String)
  | element (path : List String) (key : String)
deriving Inhabited

structure Reading where
  /-- All tables above the present one. -/
  finished : DraftTable
  heading : Heading
  present : DraftTable

namespace Reading

def start : Reading := ⟨[], .root, []⟩

def addElement (key : String) (element : DraftTable) (entries : DraftTable) :
    Option DraftTable :=
  match entries.lookup key with
  | some (.tables elements) => some (replaceEntry entries key (.tables (elements ++ [element])))
  | _ => none

def close (reading : Reading) : Option DraftTable :=
  match reading.heading with
  | .root => some reading.present
  | .table path key =>
    descend .superHeader (fun _ => addEntry key (.table .header reading.present)) path .header
      reading.finished
  | .element path key =>
    descend .superHeader (fun _ => addElement key reading.present) path .header
      reading.finished

/-- The entries of a table that has so far been named above other headers
only; it may have no other history. -/
def reopened? (key : String) (entries : DraftTable) : Option DraftTable :=
  match entries.lookup key with
  | none => some []
  | some (.table .superHeader child) => some child
  | some _ => none

def tableAt? : List String → DraftTable → Option DraftTable
  | [], entries => some entries
  | key :: path, entries =>
    match entries.lookup key with
    | some (.table _ child) => tableAt? path child
    | some (.tables elements) => elements.getLast?.bind (tableAt? path)
    | _ => none

/-- Starts the table of a header.  A table that other headers have named keeps
what it holds. -/
def openTable (reading : Reading) (path : List String) (key : String) : Option Reading := do
  let closed ← reading.close
  let present ← reopened? key ((tableAt? path closed).getD [])
  let finished ← descend .superHeader (fun _ entries => some (removeEntry entries key)) path
    .header closed
  some ⟨finished, .table path key, present⟩

/-- Makes the array of tables under a key, unless there is one. -/
def ensureArray (key : String) (entries : DraftTable) : Option DraftTable :=
  match entries.lookup key with
  | none => some (entries ++ [(key, .tables [])])
  | some (.tables _) => some entries
  | some _ => none

def openElement (reading : Reading) (path : List String) (key : String) :
    Option Reading := do
  let closed ← reading.close
  let finished ← descend .superHeader (fun _ => ensureArray key) path .header closed
  some ⟨finished, .element path key, []⟩

def add (reading : Reading) (key : KeyPath) (item : Item) : Option Reading :=
  (addValue .header key.path key.last item reading.present).map fun present =>
    { reading with present }

end Reading

/-- One line that is not blank, without what may follow it. -/
def line? (reading : Reading) : List Char → Option (Reading × List Char)
  | '[' :: '[' :: rest => do
    let (key, rest) ← keyPath? rest
    let rest ← word? "]]" rest
    let reading ← reading.openElement key.path key.last
    some (reading, rest)
  | '[' :: rest => do
    let (key, rest) ← keyPath? rest
    let rest ← word? "]" rest
    let reading ← reading.openTable key.path key.last
    some (reading, rest)
  | text => do
    let ((key, item), rest) ← keyValue? topValue? text
    let reading ← reading.add key item
    some (reading, rest)

/-- Reads all lines of a text of fewer than `bound` characters. -/
def readLines? : Nat → Reading → List Char → Option Reading
  | 0, _, _ => none
  | bound + 1, reading, text =>
    match skipSpaces text with
    | [] => some reading
    | text =>
      match lineTail? text with
      | some rest => readLines? bound reading rest
      | none => do
        let (reading, rest) ← line? reading text
        let rest ← lineTail? rest
        readLines? bound reading rest

/-- A byte order mark before the text is no part of it. -/
def withoutMark : List Char → List Char
  | '\ufeff' :: rest => rest
  | text => text

def Table.read? (text : String) : Option Table := do
  let chars := withoutMark text.toList
  let reading ← readLines? (chars.length + 1) .start chars
  let entries ← reading.close
  some (finishEntries entries)

end MemberDispatch.Toml
