import MemberDispatch.Decimal.FloatText
import MemberDispatch.Settings.Basic
import MemberDispatch.Text.Quoted
import MemberDispatch.Toml.Item

/-!
# Settings from a document

The settings are the defaults overlaid with what the document says.  A section
is a table of its fields, or an array of them in their order.  Keys that a
section does not have are refused; the first fault in document order is
reported.
-/

set_option autoImplicit false

namespace MemberDispatch

open Toml (Item Table)

/-- What a field or a section has to be. -/
inductive Shape where
  | text
  | boolean
  | sequence
  | section (title : String)
deriving DecidableEq, Inhabited

def Shape.phrase : Shape → String
  | .text => "a string"
  | .boolean => "a boolean"
  | .sequence => "a sequence"
  | .section title => "struct " ++ title

inductive ShapeFault where
  | unknownField (name : String) (expected : List String)
  | invalidType (found : Item) (expected : Shape)
deriving Inhabited

namespace ShapeFault

def codeQuoted (text : String) : String := "`" ++ text ++ "`"

def oneOf : List String → String
  | [first, second] => codeQuoted first ++ " or " ++ codeQuoted second
  | names => "one of " ++ ", ".intercalate (names.map codeQuoted)

/-- What an item is called; a date counts as a map. -/
def describe : Item → String
  | .text value => "string " ++ Text.quote value
  | .integer value => "integer " ++ codeQuoted (toString value)
  | .float value => "floating point " ++ codeQuoted (Decimal.floatText value)
  | .boolean value => "boolean " ++ codeQuoted (toString value)
  | .moment _ => "map"
  | .array _ => "sequence"
  | .table _ => "map"

def message : ShapeFault → String
  | unknownField name expected =>
    "unknown field " ++ codeQuoted name ++ ", expected " ++ oneOf expected
  | invalidType found expected =>
    "invalid type: " ++ describe found ++ ", expected " ++ expected.phrase

end ShapeFault

/-- A field of a section: its name, and how an item replaces its value. -/
structure Field (σ : Type) where
  name : String
  put : Item → σ → Except ShapeFault σ

namespace Field

def ofText {σ : Type} (name : String) (put : String → σ → σ) : Field σ where
  name := name
  put
    | .text value, current => .ok (put value current)
    | found, _ => .error (.invalidType found .text)

def ofBoolean {σ : Type} (name : String) (put : Bool → σ → σ) : Field σ where
  name := name
  put
    | .boolean value, current => .ok (put value current)
    | found, _ => .error (.invalidType found .boolean)

def textItem : Item → Except ShapeFault String
  | .text value => .ok value
  | found => .error (.invalidType found .text)

def ofTexts {σ : Type} (name : String) (put : List String → σ → σ) : Field σ where
  name := name
  put
    | .array items, current => (items.mapM textItem).map fun texts => put texts current
    | found, _ => .error (.invalidType found .sequence)

variable {σ : Type}

/-- Overlays the entries of a table in their order. -/
def overlay (fields : List (Field σ)) (base : σ) (entries : Table) : Except ShapeFault σ :=
  entries.foldlM
    (fun current entry =>
      match fields.find? fun field => field.name = entry.1 with
      | some field => field.put entry.2 current
      | none => .error (.unknownField entry.1 (fields.map Field.name)))
    base

/-- Overlays items in the order of the fields; items beyond the last field do
not count. -/
def overlayInOrder : List (Field σ) → σ → List Item → Except ShapeFault σ
  | field :: fields, base, item :: items =>
    (field.put item base).bind fun current => overlayInOrder fields current items
  | _, base, _ => .ok base

/-- The key under which a date passes for a table. -/
def momentKey : String := "$__toml_private_datetime"

def overlaySection (title : String) (fields : List (Field σ)) (base : σ) :
    Item → Except ShapeFault σ
  | .table entries => overlay fields base entries
  | .array items => overlayInOrder fields base items
  | .moment _ => .error (.unknownField momentKey (fields.map Field.name))
  | found => .error (.invalidType found (.section title))

end Field

/-- What a section starts from, field by field; a section that is missing is the
default of the whole section instead. -/
def LogSettings.unset : LogSettings where
  level := defaultLevel
  json := default
  stderr := defaultStderr

def TypeSettings.unset : TypeSettings where
  rootType := defaultRootType
  contextType := defaultContextType
  delegateType := defaultDelegateType
  trimmedPackage := defaultTrimmedPackage
  internalFrames := defaultInternalFrames

def LogSettings.fields : List (Field LogSettings) :=
  [.ofText "level" fun value settings => { settings with level := value },
    .ofBoolean "json" fun value settings => { settings with json := value },
    .ofBoolean "stderr" fun value settings => { settings with stderr := value }]

def TypeSettings.fields : List (Field TypeSettings) :=
  [.ofText "root_type" fun value settings => { settings with rootType := value },
    .ofText "context_type" fun value settings => { settings with contextType := some value },
    .ofText "delegate_type" fun value settings => { settings with delegateType := value },
    .ofText "trimmed_package_prefix" fun value settings =>
      { settings with trimmedPackage := value },
    .ofTexts "internal_frame_prefixes" fun values settings =>
      { settings with internalFrames := values }]

def Settings.fields : List (Field Settings) :=
  [{ name := "logging"
     put := fun item settings =>
      (Field.overlaySection "LoggingConfig" LogSettings.fields .unset item).map fun logging =>
        { settings with logging } },
    { name := "reflection"
      put := fun item settings =>
        (Field.overlaySection "ReflectionConfig" TypeSettings.fields .unset item).map fun types =>
          { settings with types } }]

def Settings.ofDocument (document : Table) : Except ShapeFault Settings :=
  Field.overlay Settings.fields {} document

end MemberDispatch
