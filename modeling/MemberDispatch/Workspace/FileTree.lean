/-!
# File trees

The files under a root directory, and what opening a path below it finds.  A
directory exists if it is listed or if anything is listed below it.
-/

set_option autoImplicit false

namespace MemberDispatch

inductive FileContent where
  | file (bytes : ByteArray)
  | directory

structure FileTree where
  /-- How the root directory is written. -/
  root : String
  /-- The contents by the parts of their paths. -/
  entries : List (List String × FileContent)

/-- Why a path cannot be read as text. -/
inductive ReadFault where
  | missing
  | isDirectory
  | notDirectory
  | notText
deriving DecidableEq, Inhabited

def ReadFault.message : ReadFault → String
  | .missing => "No such file or directory (os error 2)"
  | .isDirectory => "Is a directory (os error 21)"
  | .notDirectory => "Not a directory (os error 20)"
  | .notText => "stream did not contain valid UTF-8"

namespace FileTree

def pathParts (path : String) : List String :=
  (go [] path.toList).map String.ofList
where
  go (part : List Char) : List Char → List (List Char)
    | [] => [part.reverse]
    | c :: rest => if c = '/' then part.reverse :: go [] rest else go (c :: part) rest

/-- What stands at a place; the root is a directory. -/
def contentAt? (tree : FileTree) (place : List String) : Option FileContent :=
  match tree.entries.lookup place with
  | some content => some content
  | none =>
    if place.isEmpty ∨ tree.entries.any fun entry => place.isPrefixOf entry.1 then
      some .directory
    else none

/-- Walks from a place along the parts of a path.  Every part, an empty one
included, has to start in a directory; two dots lead back up, and the tree ends
above its root. -/
def walkParts (tree : FileTree) (place : List String) :
    List String → Except ReadFault FileContent
  | [] =>
    match tree.contentAt? place with
    | some content => .ok content
    | none => .error .missing
  | part :: rest =>
    match tree.contentAt? place with
    | none => .error .missing
    | some (.file _) => .error .notDirectory
    | some .directory =>
      if part = "" ∨ part = "." then tree.walkParts place rest
      else if part = ".." then
        if place.isEmpty then .error .missing else tree.walkParts place.dropLast rest
      else tree.walkParts (place ++ [part]) rest

/-- What a path below the root leads to; an absolute path leads out of the
tree. -/
def find (tree : FileTree) (path : String) : Except ReadFault FileContent :=
  if path.startsWith "/" then .error .missing
  else tree.walkParts [] (pathParts path)

def isFile (tree : FileTree) (path : String) : Bool :=
  match tree.find path with
  | .ok (.file _) => true
  | _ => false

def display (tree : FileTree) (path : String) : String :=
  if path.startsWith "/" then path else tree.root ++ "/" ++ path

def readText (tree : FileTree) (path : String) : Except ReadFault String :=
  match tree.find path with
  | .error fault => .error fault
  | .ok .directory => .error .isDirectory
  | .ok (.file bytes) =>
    match String.fromUTF8? bytes with
    | some text => .ok text
    | none => .error .notText

end FileTree

end MemberDispatch
