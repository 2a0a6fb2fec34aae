import MemberDispatch.Settings.Basic
import MemberDispatch.Toml.Item

/-!
# Settings as a document

Every field is written under its name; a context type that is turned off has
no entry.
-/

set_option autoImplicit false

namespace MemberDispatch

open Toml (Item Table)

def LogSettings.toTable (settings : LogSettings) : Table :=
  [("level", .text settings.level),
    ("json", .boolean settings.json),
    ("stderr", .boolean settings.stderr)]

def TypeSettings.toTable (settings : TypeSettings) : Table :=
  [("root_type", .text settings.rootType)]
  ++ settings.contextType.toList.map (fun name => ("context_type", .text name))
  ++ [("delegate_type", .text settings.delegateType),
    ("trimmed_package_prefix", .text settings.trimmedPackage),
    ("internal_frame_prefixes", .array (settings.internalFrames.map .text))]

def Settings.toDocument (settings : Settings) : Table :=
  [("logging", .table settings.logging.toTable),
    ("reflection", .table settings.types.toTable)]

end MemberDispatch
