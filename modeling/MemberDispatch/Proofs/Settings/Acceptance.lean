import Mathlib.Data.List.Forall2
import MemberDispatch.Proofs.Settings.Overlay

/-!
# What is loaded and what is described

The loader takes a document apart field by field, and the schema describes it
value by value.  They agree on every field, and on every section that is given
as a table.  The loader takes a section as an array of its fields too, which
the schema describes nowhere: such a document is loaded as if the names of the
fields had been written, and never valid.
-/

set_option autoImplicit false

namespace MemberDispatch

open JsonSchema Toml

variable {α σ : Type}

namespace JsonValue

/-- An item and its value, taken apart together. -/
inductive Reads : Item → JsonValue → Prop where
  | text (written : String) : Reads (.text written) (.text written)
  | integer (number : Int) : Reads (.integer number) (.integer number)
  | boolean (flag : Bool) : Reads (.boolean flag) (.boolean flag)
  | array {items : List Item} {values : List JsonValue}
      (each : ofItems? items = some values) : Reads (.array items) (.array values)
  | table {entries : Table} {values : List (String × JsonValue)}
      (each : ofEntries? entries = some values) : Reads (.table entries) (.object values)

theorem reads_of_ofItem? {item : Item} {value : JsonValue} (json : ofItem? item = some value) :
    Reads item value := by
  cases item with
  | text written =>
      cases json
      exact .text written
  | integer number =>
      cases json
      exact .integer number
  | boolean flag =>
      cases json
      exact .boolean flag
  | array items =>
      obtain ⟨values, each, rfl⟩ := Option.map_eq_some_iff.mp json
      exact .array each
  | table entries =>
      obtain ⟨values, each, rfl⟩ := Option.map_eq_some_iff.mp json
      exact .table each
  | float | moment => cases json

theorem ofItems?_cons {item : Item} {items : List Item} {values : List JsonValue}
    (json : ofItems? (item :: items) = some values) :
    ∃ value rest, values = value :: rest ∧ ofItem? item = some value ∧
      ofItems? items = some rest := by
  obtain ⟨value, first, json⟩ := Option.bind_eq_some_iff.mp json
  obtain ⟨rest, others, json⟩ := Option.bind_eq_some_iff.mp json
  exact ⟨value, rest, (Option.some.inj json).symm, first, others⟩

theorem ofEntries?_cons {entry : String × Item} {entries : Table}
    {values : List (String × JsonValue)} (json : ofEntries? (entry :: entries) = some values) :
    ∃ value rest, values = (entry.1, value) :: rest ∧ ofItem? entry.2 = some value ∧
      ofEntries? entries = some rest := by
  obtain ⟨key, item⟩ := entry
  obtain ⟨value, first, json⟩ := Option.bind_eq_some_iff.mp json
  obtain ⟨rest, others, json⟩ := Option.bind_eq_some_iff.mp json
  exact ⟨value, rest, (Option.some.inj json).symm, first, others⟩

end JsonValue

open JsonValue

namespace Field

/-! ## Fields -/

/-- The field takes exactly the items whose values are accepted. -/
def Admits (field : Field σ) (accepts : JsonValue → Bool) : Prop :=
  ∀ item value base, ofItem? item = some value →
    ((∃ next, field.put item base = .ok next) ↔ accepts value = true)

/-- No item is `null`, so that it does not matter whether `null` is accepted. -/
theorem Admits.ofText {name : String} {put : String → σ → σ} {types : List JsonType}
    (textual : types = [.text] ∨ types = [.text, .null]) :
    (Field.ofText name put).Admits (FieldShape.oneOf types).accepts := by
  intro item value base json
  rcases textual with rfl | rfl <;> cases reads_of_ofItem? json <;>
    simp [Field.ofText, FieldShape.accepts, JsonType.accepts]

theorem Admits.ofBoolean {name : String} {put : Bool → σ → σ} :
    (Field.ofBoolean name put).Admits (FieldShape.oneOf [.boolean]).accepts := by
  intro item value base json
  cases reads_of_ofItem? json <;> simp [Field.ofBoolean, FieldShape.accepts, JsonType.accepts]

theorem textItem_isOk_iff {item : Item} {value : JsonValue} (json : ofItem? item = some value) :
    (∃ text, textItem item = .ok text) ↔ JsonType.text.accepts value = true := by
  cases reads_of_ofItem? json <;> simp [textItem, JsonType.accepts]

theorem mapM_textItem_isOk_iff {items : List Item} {values : List JsonValue}
    (json : ofItems? items = some values) :
    (∃ texts, items.mapM textItem = .ok texts) ↔ values.all JsonType.text.accepts = true := by
  induction items generalizing values with
  | nil =>
      cases json
      simp [pure, Except.pure]
  | cons item items ih =>
      obtain ⟨value, rest, rfl, first, others⟩ := ofItems?_cons json
      have both : (∃ texts, (item :: items).mapM textItem = .ok texts) ↔
          (∃ text, textItem item = .ok text) ∧ ∃ texts, items.mapM textItem = .ok texts := by
        rw [List.mapM_cons]
        cases textItem item with
        | error fault => simp [bind, Except.bind]
        | ok text =>
            cases items.mapM textItem <;> simp [bind, Except.bind, pure, Except.pure]
      rw [both, textItem_isOk_iff first, ih others, List.all_cons, Bool.and_eq_true]

theorem Admits.ofTexts {name : String} {put : List String → σ → σ} :
    (Field.ofTexts name put).Admits (FieldShape.listOf .text).accepts := by
  intro item value base json
  cases reads_of_ofItem? json with
  | array each =>
      simp only [Field.ofTexts, FieldShape.accepts]
      rw [exists_map_eq_ok_iff, mapM_textItem_isOk_iff each]
  | text | integer | boolean | table => simp [Field.ofTexts, FieldShape.accepts]

/-! ## Overlays -/

variable {key : α → String} {accepts : α → JsonValue → Bool} {fields : List (Field σ)}
  {parts : List α}

/-- Fields and parts under the same names, one by one, each taking what the
other accepts. -/
def Describes (key : α → String) (accepts : α → JsonValue → Bool) (fields : List (Field σ))
    (parts : List α) : Prop :=
  List.Forall₂ (fun field part => field.name = key part ∧ field.Admits (accepts part)) fields parts

/-- A table is taken if every entry is. -/
theorem Describes.overlay_isOk_iff (described : Describes key accepts fields parts)
    {entries : Table} {values : List (String × JsonValue)}
    (json : ofEntries? entries = some values) (base : σ) :
    (∃ result, overlay fields base entries = .ok result) ↔
      acceptsEntries parts key accepts (.object values) = true := by
  induction entries generalizing base values with
  | nil =>
      cases json
      exact iff_of_true ⟨base, rfl⟩ rfl
  | cons entry entries ih =>
      obtain ⟨value, rest, rfl, first, others⟩ := ofEntries?_cons json
      rw [acceptsEntries, List.all_cons, Bool.and_eq_true]
      rcases find?_of_named described entry.1 with ⟨noPart, noField⟩ | ⟨part, field, found, taken, admits⟩
      · rw [overlay_cons_unknown noField, noPart]
        simp
      · rw [overlay_cons taken, exists_bind_eq_ok_iff, found]
        -- What an entry has changed has no influence on the entries after it.
        have rests : ∀ next, (∃ result, overlay fields next entries = .ok result) ↔
            acceptsEntries parts key accepts (.object rest) = true := ih others
        simp only [rests, exists_and_right, admits entry.2 value base first]
        rfl

/-- An array is taken if every item is that has a field; the others are not
looked at. -/
theorem Describes.overlayInOrder_isOk_iff (described : Describes key accepts fields parts)
    {items : List Item} {values : List JsonValue} (json : ofItems? items = some values) (base : σ) :
    (∃ result, overlayInOrder fields base items = .ok result) ↔
      ∀ pair ∈ parts.zip values, accepts pair.1 pair.2 = true := by
  induction described generalizing items values base with
  | nil => simp [overlayInOrder]
  | @cons field part fields parts pair described ih =>
      cases items with
      | nil =>
          cases json
          simp [overlayInOrder]
      | cons item items =>
          obtain ⟨value, rest, rfl, first, others⟩ := ofItems?_cons json
          rw [overlayInOrder, exists_bind_eq_ok_iff, List.zip_cons_cons, List.forall_mem_cons]
          simp only [ih others, exists_and_right, pair.2 item value base first]

end Field

/-! ## Sections -/

/-- Values under distinct names are accepted part by part. -/
theorem acceptsEntries_zip_iff {parts : List α} {key : α → String}
    {accepts : α → JsonValue → Bool} (distinct : (parts.map key).Nodup)
    {values : List JsonValue} :
    acceptsEntries parts key accepts (.object ((parts.map key).zip values)) = true ↔
      ∀ pair ∈ parts.zip values, accepts pair.1 pair.2 = true := by
  have named : (parts.map key).zip values =
      (parts.zip values).map fun pair => (key pair.1, pair.2) := by
    rw [List.zip_map_left]
    rfl
  rw [named, acceptsEntries, List.all_map, List.all_eq_true]
  refine forall₂_congr fun pair member => ?_
  simp only [Function.comp_apply]
  rw [find?_key distinct (List.of_mem_zip member).1]

/-- The section with the names of its fields written out. -/
def SectionSchema.spellOut (schema : SectionSchema) : JsonValue → JsonValue
  | .array items => .object ((schema.fields.map FieldSchema.name).zip items)
  | value => value

/-- Loaded fields that a section of the schema describes. -/
def SectionSchema.Describes (schema : SectionSchema) (fields : List (Field σ)) : Prop :=
  Field.Describes FieldSchema.name (fun field => field.shape.accepts) fields schema.fields

theorem SectionSchema.Describes.overlaySection_isOk_iff {schema : SectionSchema}
    {fields : List (Field σ)} (described : schema.Describes fields)
    (distinct : (schema.fields.map FieldSchema.name).Nodup) {title : String} {base : σ}
    {item : Item} {value : JsonValue} (json : ofItem? item = some value) :
    (∃ result, Field.overlaySection title fields base item = .ok result) ↔
      schema.accepts (schema.spellOut value) = true := by
  cases reads_of_ofItem? json with
  | table each => exact Field.Describes.overlay_isOk_iff described each base
  | array each =>
      rw [spellOut, accepts, acceptsEntries_zip_iff distinct]
      exact Field.Describes.overlayInOrder_isOk_iff described each base
  | text | integer | boolean =>
      simp [Field.overlaySection, spellOut, accepts, acceptsEntries]

theorem SectionSchema.accepts_iff_spellOut {schema : SectionSchema} {value : JsonValue} :
    schema.accepts value = true ↔
      (∀ items, value ≠ .array items) ∧ schema.accepts (schema.spellOut value) = true := by
  cases value with
  | array items => simp [accepts, acceptsEntries]
  | _ => simp [spellOut]

theorem LogSettings.schema_describes : LogSettings.schema.Describes LogSettings.fields :=
  .cons ⟨rfl, .ofText (.inl rfl)⟩ <| .cons ⟨rfl, .ofBoolean⟩ <| .cons ⟨rfl, .ofBoolean⟩ .nil

theorem TypeSettings.schema_describes : TypeSettings.schema.Describes TypeSettings.fields :=
  .cons ⟨rfl, .ofText (.inl rfl)⟩ <| .cons ⟨rfl, .ofText (.inr rfl)⟩ <|
    .cons ⟨rfl, .ofText (.inl rfl)⟩ <| .cons ⟨rfl, .ofText (.inl rfl)⟩ <|
    .cons ⟨rfl, .ofTexts⟩ .nil

/-! ## Documents -/

namespace SettingsSchema

variable {schema : SettingsSchema} {value : JsonValue}

/-- The document with all its sections as tables. -/
def spellOut (schema : SettingsSchema) : JsonValue → JsonValue
  | .object entries => .object (entries.map fun entry =>
      match schema.sections.find? fun part => part.key = entry.1 with
      | some part => (entry.1, part.spellOut entry.2)
      | none => entry)
  | value => value

/-- A section is given as an array of its fields. -/
def ListsSection (schema : SettingsSchema) (value : JsonValue) : Prop :=
  ∃ entries, value = .object entries ∧
    ∃ part ∈ schema.sections, ∃ items, (part.key, .array items) ∈ entries

theorem accepts_spellOut :
    schema.accepts (schema.spellOut value) =
      acceptsEntries schema.sections SectionSchema.key
        (fun part value => part.accepts (part.spellOut value)) value := by
  cases value with
  | object entries =>
      rw [spellOut, accepts, acceptsEntries, acceptsEntries, List.all_map]
      refine congrArg entries.all (funext fun entry => ?_)
      rw [Function.comp_apply]
      cases found : schema.sections.find? fun part => part.key = entry.1 with
      | none => simp [found]
      | some part => simp [found]
  | _ => rfl

/-- Arrays in the places of sections are all that the schema lacks. -/
theorem accepts_iff_spellOut :
    schema.accepts value = true ↔
      schema.accepts (schema.spellOut value) = true ∧ ¬ schema.ListsSection value := by
  rw [accepts_spellOut, accepts, acceptsEntries_iff, acceptsEntries_iff]
  constructor
  · rintro ⟨members, rfl, each⟩
    refine ⟨⟨members, rfl, ?_⟩, ?_⟩
    · intro member inside
      obtain ⟨part, found, accepted⟩ := each member inside
      exact ⟨part, found, (SectionSchema.accepts_iff_spellOut.mp accepted).2⟩
    · rintro ⟨_, ⟨⟩, part, _, items, inside⟩
      obtain ⟨other, _, accepted⟩ := each _ inside
      exact (SectionSchema.accepts_iff_spellOut.mp accepted).1 items rfl
  · rintro ⟨⟨members, rfl, each⟩, tables⟩
    refine ⟨members, rfl, ?_⟩
    intro member inside
    obtain ⟨part, found, accepted⟩ := each member inside
    refine ⟨part, found, SectionSchema.accepts_iff_spellOut.mpr ⟨?_, accepted⟩⟩
    intro items listed
    have named : part.key = member.1 := by simpa using List.find?_some found
    refine tables ⟨members, rfl, part, List.mem_of_find?_eq_some found, items, ?_⟩
    rw [named, ← listed]
    exact inside

end SettingsSchema

namespace Settings

theorem schema_describes :
    Field.Describes SectionSchema.key (fun part value => part.accepts (part.spellOut value))
      Settings.fields Settings.schema.sections := by
  refine .cons ⟨rfl, ?_⟩ (.cons ⟨rfl, ?_⟩ .nil)
  · intro item value base json
    exact exists_map_eq_ok_iff.trans
      (LogSettings.schema_describes.overlaySection_isOk_iff (by decide) json)
  · intro item value base json
    exact exists_map_eq_ok_iff.trans
      (TypeSettings.schema_describes.overlaySection_isOk_iff (by decide) json)

theorem schema_validates_iff {value : JsonValue} :
    Validates schema.toJson schema.toJson value ↔ schema.accepts value = true :=
  SettingsSchema.validates_toJson_iff (by decide)

variable {text : String} {document : Table} {value : JsonValue}

theorem ofText_isOk_iff_accepts (read : Table.read? text = some document)
    (json : ofItem? (.table document) = some value) :
    (∃ settings, ofText text = .ok settings) ↔ schema.accepts (schema.spellOut value) = true := by
  obtain ⟨values, each, rfl⟩ := Option.map_eq_some_iff.mp json
  rw [ofText_isOk_iff read, SettingsSchema.accepts_spellOut]
  exact schema_describes.overlay_isOk_iff each {}

/-- A document is valid if it is loaded and none of its sections is an array; with
the sections as tables, what is valid and what is loaded are the same. -/
theorem loaded_iff_valid (read : Table.read? text = some document)
    (json : ofItem? (.table document) = some value) :
    (Validates schema.toJson schema.toJson value ↔
        (∃ settings, ofText text = .ok settings) ∧ ¬ schema.ListsSection value) ∧
      ((∃ settings, ofText text = .ok settings) ↔
        Validates schema.toJson schema.toJson (schema.spellOut value)) := by
  have loaded := ofText_isOk_iff_accepts read json
  rw [schema_validates_iff, schema_validates_iff, loaded]
  exact ⟨SettingsSchema.accepts_iff_spellOut, Iff.rfl⟩

/-! ## A section in two forms -/

def levelTable : String := "[logging]\nlevel = \"debug\"\n"

def levelList : String := "logging = [\"debug\"]\n"

theorem read_levelTable :
    Table.read? levelTable = some [("logging", .table [("level", .text "debug")])] := by
  decide +kernel

theorem read_levelList :
    Table.read? levelList = some [("logging", .array [.text "debug"])] := by
  decide +kernel

theorem levelTable_loaded_and_valid :
    Table.read? levelTable = some [("logging", .table [("level", .text "debug")])] ∧
      ofText levelTable = .ok { logging := { level := "debug" } } ∧
      Validates schema.toJson schema.toJson
        (.object [("logging", .object [("level", .text "debug")])]) := by
  have loaded : ofText levelTable = .ok { logging := { level := "debug" } } :=
    ofText_of_read read_levelTable rfl
  refine ⟨read_levelTable, loaded, (loaded_iff_valid read_levelTable rfl).1.mpr ⟨⟨_, loaded⟩, ?_⟩⟩
  rintro ⟨_, ⟨⟩, part, _, items, listed⟩
  simp at listed

theorem levelList_loaded_but_not_valid :
    Table.read? levelList = some [("logging", .array [.text "debug"])] ∧
      ofItem? (.table [("logging", .array [.text "debug"])]) =
        some (.object [("logging", .array [.text "debug"])]) ∧
      ofText levelList = .ok { logging := { level := "debug" } } ∧
      ¬ Validates schema.toJson schema.toJson
        (.object [("logging", .array [.text "debug"])]) := by
  refine ⟨read_levelList, rfl, ofText_of_read read_levelList rfl, ?_⟩
  rw [schema_validates_iff]
  decide

end Settings

end MemberDispatch
