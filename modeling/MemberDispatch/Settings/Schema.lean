import MemberDispatch.Settings.Encode

/-!
# The schema of the settings

Which JSON values describe settings: an object of sections, each an object of
fields, without any other keys.  `SettingsSchema.accepts` says what a schema
admits, and `SettingsSchema.toJson` writes it down for other tools.
-/

set_option autoImplicit false

namespace MemberDispatch

open Toml (Item Table)

inductive JsonValue where
  | null
  | boolean (value : Bool)
  | integer (value : Int)
  | text (value : String)
  | array (items : List JsonValue)
  | object (entries : List (String × JsonValue))
deriving Inhabited

namespace JsonValue

mutual

/-- The JSON value that an item corresponds to; floating point numbers and
dates have none here. -/
def ofItem? : Item → Option JsonValue
  | .text value => some (text value)
  | .integer value => some (integer value)
  | .boolean value => some (boolean value)
  | .array items => (ofItems? items).map array
  | .table entries => (ofEntries? entries).map object
  | .float _ => none
  | .moment _ => none

def ofItems? : List Item → Option (List JsonValue)
  | [] => some []
  | item :: rest => do
    let value ← ofItem? item
    let values ← ofItems? rest
    some (value :: values)

def ofEntries? : List (String × Item) → Option (List (String × JsonValue))
  | [] => some []
  | (key, item) :: rest => do
    let value ← ofItem? item
    let values ← ofEntries? rest
    some ((key, value) :: values)

end

def lookup? : JsonValue → String → Option JsonValue
  | object entries, key => entries.lookup key
  | _, _ => none

end JsonValue

/-! ## Schemas -/

inductive JsonType where
  | null
  | boolean
  | text
  | array
  | object
deriving DecidableEq, Inhabited

def JsonType.name : JsonType → String
  | .null => "null"
  | .boolean => "boolean"
  | .text => "string"
  | .array => "array"
  | .object => "object"

def JsonType.accepts : JsonType → JsonValue → Bool
  | .null, .null => true
  | .boolean, .boolean _ => true
  | .text, .text _ => true
  | .array, .array _ => true
  | .object, .object _ => true
  | _, _ => false

inductive FieldShape where
  | oneOf (types : List JsonType)
  | listOf (element : JsonType)
deriving DecidableEq, Inhabited

def FieldShape.accepts : FieldShape → JsonValue → Bool
  | .oneOf types, value => types.any fun type => type.accepts value
  | .listOf element, .array items => items.all element.accepts
  | .listOf _, _ => false

structure FieldSchema where
  name : String
  description : String
  shape : FieldShape
deriving Inhabited

structure SectionSchema where
  key : String
  title : String
  description : Option String
  fields : List FieldSchema
  /-- The section where the document does not mention it. -/
  default : JsonValue
deriving Inhabited

structure SettingsSchema where
  title : String
  sections : List SectionSchema
deriving Inhabited

/-- An object all of whose keys are known and have an accepted value. -/
def acceptsEntries {α : Type} (parts : List α) (key : α → String)
    (accepts : α → JsonValue → Bool) : JsonValue → Bool
  | .object entries =>
    entries.all fun entry =>
      match parts.find? fun part => key part = entry.1 with
      | some part => accepts part entry.2
      | none => false
  | _ => false

def SectionSchema.accepts (schema : SectionSchema) (value : JsonValue) : Bool :=
  acceptsEntries schema.fields FieldSchema.name
    (fun field value => field.shape.accepts value) value

def SettingsSchema.accepts (schema : SettingsSchema) (value : JsonValue) : Bool :=
  acceptsEntries schema.sections SectionSchema.key
    (fun part value => part.accepts value) value

/-! ## Written schemas -/

def FieldShape.toEntries : FieldShape → List (String × JsonValue)
  | .oneOf [type] => [("type", .text type.name)]
  | .oneOf types => [("type", .array (types.map fun type => .text type.name))]
  | .listOf element =>
    [("type", .text JsonType.array.name), ("items", .object [("type", .text element.name)])]

def FieldSchema.toJson (schema : FieldSchema) (default : Option JsonValue) : JsonValue :=
  .object
    (("description", .text schema.description) ::
      (default.toList.map fun value => ("default", value)) ++ schema.shape.toEntries)

def closedObject (properties : List (String × JsonValue)) : List (String × JsonValue) :=
  [("type", .text JsonType.object.name),
    ("additionalProperties", .boolean false),
    ("properties", .object properties)]

def SectionSchema.toDefinition (schema : SectionSchema) : JsonValue :=
  .object
    ((schema.description.toList.map fun description => ("description", .text description)) ++
      closedObject (schema.fields.map fun field =>
        (field.name, field.toJson (schema.default.lookup? field.name))))

/-- A section refers to the definition of its title. -/
def SectionSchema.toProperty (schema : SectionSchema) : JsonValue :=
  .object
    [("default", schema.default),
      ("allOf", .array [.object [("$ref", .text ("#/definitions/" ++ schema.title))]])]

def SettingsSchema.toJson (schema : SettingsSchema) : JsonValue :=
  .object
    ([("$schema", .text "http://json-schema.org/draft-07/schema#"),
      ("title", .text schema.title)] ++
      closedObject (schema.sections.map fun part => (part.key, part.toProperty)) ++
      [("definitions", .object (schema.sections.map fun part =>
        (part.title, part.toDefinition)))])

/-! ## The schema of the settings -/

def tableJson (table : Table) : JsonValue :=
  (JsonValue.ofItem? (.table table)).getD .null

def LogSettings.schema : SectionSchema where
  key := "logging"
  title := "LoggingConfig"
  description := none
  fields :=
    [⟨"level",
        "Logging level for all stubble crates.\n\nEither a simple level (`info`, `debug`, ...) " ++
          "or a full `EnvFilter` directive string.",
        .oneOf [.text]⟩,
      ⟨"json", "Emit logs in JSON format.", .oneOf [.boolean]⟩,
      ⟨"stderr", "Write logs to stderr. When disabled no subscriber is installed.",
        .oneOf [.boolean]⟩]
  default := tableJson (LogSettings.toTable {})

def TypeSettings.schema : SectionSchema where
  key := "reflection"
  title := "ReflectionConfig"
  description := some "Names of the types the reflection engine treats specially."
  fields :=
    [⟨"root_type", "Universal root type. Ancestor walks stop before it.", .oneOf [.text]⟩,
      ⟨"context_type",
        "Type of the synthetic leading context parameter. " ++
          "An empty name disables the convention.",
        .oneOf [.text, .null]⟩,
      ⟨"delegate_type",
        "Marker interface of delegate objects (affects diagnostics wording only).",
        .oneOf [.text]⟩,
      ⟨"trimmed_package_prefix", "Package prefix removed from type names in diagnostics.",
        .oneOf [.text]⟩,
      ⟨"internal_frame_prefixes",
        "Stack frames whose class name starts with one of these prefixes are dropped from " ++
          "argument-binding failures.",
        .listOf .text⟩]
  default := tableJson (TypeSettings.toTable {})

def Settings.schema : SettingsSchema where
  title := "StubbleConfig"
  sections := [LogSettings.schema, TypeSettings.schema]

end MemberDispatch
