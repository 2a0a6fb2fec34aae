import MemberDispatch.Settings.Decode
import MemberDispatch.Toml.Document
import MemberDispatch.Workspace.FileTree

/-!
# Settings of a workspace

The settings are read from the first of the known files that the workspace
has; without one the defaults hold.
-/

set_option autoImplicit false

namespace MemberDispatch

inductive LoadFault where
  | unreadable (path : String) (cause : ReadFault)
  | noDocument
  | misshapen (fault : ShapeFault)
deriving Inhabited

def Settings.ofText (text : String) : Except LoadFault Settings :=
  match Toml.Table.read? text with
  | none => .error .noDocument
  | some document =>
    match Settings.ofDocument document with
    | .error fault => .error (.misshapen fault)
    | .ok settings => .ok settings

namespace LoadFault

/-- The text for a fault, where the library words it. -/
def message? : LoadFault → Option String
  | unreadable path cause =>
    some ("failed to read config file " ++ path ++ ": " ++ cause.message)
  | noDocument => none
  | misshapen fault => some ("failed to parse toml config: " ++ fault.message)

end LoadFault

namespace FileTree

def settingsAt (tree : FileTree) (path : String) : Except LoadFault Settings :=
  match tree.readText path with
  | .error cause => .error (.unreadable (tree.display path) cause)
  | .ok text => Settings.ofText text

/-- The files that may hold the settings, in the order of their precedence. -/
def knownFiles : List String :=
  ["stubble.toml", ".stubble/config.toml"]

def discovered? (tree : FileTree) : Option String :=
  knownFiles.find? tree.isFile

def settings (tree : FileTree) : Except LoadFault (Settings × Option String) :=
  match tree.discovered? with
  | none => .ok ({}, none)
  | some path => (tree.settingsAt path).map fun settings => (settings, some path)

end FileTree

end MemberDispatch
