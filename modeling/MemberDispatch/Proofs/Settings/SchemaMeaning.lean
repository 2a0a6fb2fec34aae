import MemberDispatch.Settings.Schema

/-!
# What a written schema means

A schema is written down as a JSON value, and other tools read it by the
standard meaning of its keywords.  That meaning is stated here for any JSON
value, as far as the keywords that the schema of the settings uses.  A written
schema then describes exactly the values that the schema accepts.
-/

set_option autoImplicit false

namespace MemberDispatch

variable {α β : Type}

namespace JsonSchema

/-! ## Keywords -/

def OfType (name : String) : JsonValue → Prop
  | .null => name = "null"
  | .boolean _ => name = "boolean"
  | .integer _ => name = "integer" ∨ name = "number"
  | .text _ => name = "string"
  | .array _ => name = "array"
  | .object _ => name = "object"

/-- A type, or a list of types of which one is enough. -/
def HasType : JsonValue → JsonValue → Prop
  | .text name, value => OfType name value
  | .array names, value => ∃ name, .text name ∈ names ∧ OfType name value
  | _, _ => False

/-- References lead into the definitions of the whole schema. -/
def Refers (root : JsonValue) (reference : String) (target : JsonValue) : Prop :=
  ∃ definitions name, root.lookup? "definitions" = some (.object definitions) ∧
    reference = "#/definitions/" ++ name ∧ definitions.lookup name = some target

/-- A value is valid under a schema.  A reference stands for what it leads to,
whatever is written beside it; all other keywords have to hold together, each
for the values that it is about. -/
inductive Validates (root : JsonValue) : JsonValue → JsonValue → Prop where
  | anything {value : JsonValue} : Validates root (.boolean true) value
  | referred {entries : List (String × JsonValue)} {reference : String}
      {target value : JsonValue}
      (refers : entries.lookup "$ref" = some (.text reference))
      (leads : Refers root reference target) (valid : Validates root target value) :
      Validates root (.object entries) value
  | asserted {entries : List (String × JsonValue)} {value : JsonValue}
      (unreferred : entries.lookup "$ref" = none)
      (typed : ∀ type, entries.lookup "type" = some type → HasType type value)
      (conjuncts : ∀ schemas, entries.lookup "allOf" = some (.array schemas) →
        ∀ schema ∈ schemas, Validates root schema value)
      (elements : ∀ schema items, entries.lookup "items" = some schema → value = .array items →
        ∀ item ∈ items, Validates root schema item)
      (known : ∀ properties members, entries.lookup "properties" = some (.object properties) →
        value = .object members → ∀ member ∈ members, ∀ schema,
        properties.lookup member.1 = some schema → Validates root schema member.2)
      (others : ∀ schema members, entries.lookup "additionalProperties" = some schema →
        value = .object members → ∀ member ∈ members,
        (∀ properties, entries.lookup "properties" = some (.object properties) →
          properties.lookup member.1 = none) →
        Validates root schema member.2) :
      Validates root (.object entries) value

def assertions : List String :=
  ["$ref", "type", "allOf", "items", "properties", "additionalProperties"]

section Validates

variable {root value : JsonValue} {entries before after properties : List (String × JsonValue)}

/-- Only the keywords that assert something count. -/
theorem Validates.congr {other : List (String × JsonValue)}
    (same : ∀ keyword ∈ assertions, entries.lookup keyword = other.lookup keyword)
    (valid : Validates root (.object entries) value) : Validates root (.object other) value := by
  simp only [assertions, List.forall_mem_cons] at same
  obtain ⟨reference, type, allOf, items, props, additional, -⟩ := same
  cases valid with
  | referred refers leads valid => exact .referred (reference ▸ refers) leads valid
  | asserted unreferred typed conjuncts elements known others =>
      rw [reference] at unreferred
      rw [type] at typed
      rw [allOf] at conjuncts
      rw [items] at elements
      rw [props] at known others
      rw [additional] at others
      exact .asserted unreferred typed conjuncts elements known others

theorem validates_annotated
    (above : ∀ keyword ∈ assertions, before.lookup keyword = none)
    (below : ∀ keyword ∈ assertions, after.lookup keyword = none) :
    Validates root (.object (before ++ entries ++ after)) value ↔
      Validates root (.object entries) value := by
  have same : ∀ keyword ∈ assertions,
      (before ++ entries ++ after).lookup keyword = entries.lookup keyword := by
    intro keyword asserts
    simp [List.lookup_append, above keyword asserts, below keyword asserts]
  exact ⟨.congr same, .congr fun keyword asserts => (same keyword asserts).symm⟩

/-- Without a reference all other keywords hold together. -/
theorem validates_asserted_iff (unreferred : entries.lookup "$ref" = none) :
    Validates root (.object entries) value ↔
      (∀ type, entries.lookup "type" = some type → HasType type value) ∧
        (∀ schemas, entries.lookup "allOf" = some (.array schemas) →
          ∀ schema ∈ schemas, Validates root schema value) ∧
        (∀ schema items, entries.lookup "items" = some schema → value = .array items →
          ∀ item ∈ items, Validates root schema item) ∧
        (∀ properties members, entries.lookup "properties" = some (.object properties) →
          value = .object members → ∀ member ∈ members, ∀ schema,
          properties.lookup member.1 = some schema → Validates root schema member.2) ∧
        ∀ schema members, entries.lookup "additionalProperties" = some schema →
          value = .object members → ∀ member ∈ members,
          (∀ properties, entries.lookup "properties" = some (.object properties) →
            properties.lookup member.1 = none) →
          Validates root schema member.2 := by
  constructor
  · intro valid
    cases valid with
    | referred refers =>
        rw [unreferred] at refers
        cases refers
    | asserted _ typed conjuncts elements known others =>
        exact ⟨typed, conjuncts, elements, known, others⟩
  · rintro ⟨typed, conjuncts, elements, known, others⟩
    exact .asserted unreferred typed conjuncts elements known others

theorem not_validates_false : ¬ Validates root (.boolean false) value := by
  intro valid
  cases valid

theorem validates_type_iff {type : JsonValue} :
    Validates root (.object [("type", type)]) value ↔ HasType type value := by
  rw [validates_asserted_iff rfl]
  simp [List.lookup_cons]

theorem validates_elements_iff {element : JsonValue} :
    Validates root (.object [("type", .text "array"), ("items", element)]) value ↔
      ∃ items, value = .array items ∧ ∀ item ∈ items, Validates root element item := by
  rw [validates_asserted_iff rfl]
  cases value <;> simp [List.lookup_cons, HasType, OfType]

theorem validates_conjunct_iff {schema : JsonValue} :
    Validates root (.object [("allOf", .array [schema])]) value ↔ Validates root schema value := by
  rw [validates_asserted_iff rfl]
  simp [List.lookup_cons]

theorem validates_reference_iff {reference : String} {target : JsonValue}
    (leads : ∀ other, Refers root reference other ↔ other = target) :
    Validates root (.object [("$ref", .text reference)]) value ↔ Validates root target value := by
  constructor
  · intro valid
    cases valid with
    | referred refers followed valid =>
        cases refers
        exact (leads _).mp followed ▸ valid
    | asserted unreferred => cases unreferred
  · intro valid
    exact .referred rfl ((leads target).mpr rfl) valid

/-- An object without other keys than its properties. -/
theorem validates_closedObject_iff :
    Validates root (.object (closedObject properties)) value ↔
      ∃ members, value = .object members ∧ ∀ member ∈ members,
        ∃ schema, properties.lookup member.1 = some schema ∧
          Validates root schema member.2 := by
  rw [closedObject, validates_asserted_iff rfl]
  constructor
  · rintro ⟨typed, -, -, known, others⟩
    have isObject : HasType (.text "object") value := typed _ rfl
    cases value with
    | object members =>
        refine ⟨members, rfl, ?_⟩
        intro member inside
        cases found : properties.lookup member.1 with
        | some schema =>
            have valid := known properties members rfl rfl member inside schema found
            exact ⟨schema, rfl, valid⟩
        | none =>
            refine absurd (others _ members rfl rfl member inside ?_) not_validates_false
            rintro _ ⟨⟩
            exact found
    | _ => simp [HasType, OfType] at isObject
  · rintro ⟨members, rfl, each⟩
    refine ⟨?_, by simp [List.lookup_cons], by simp, ?_, ?_⟩
    · rintro _ ⟨⟩
      rfl
    · rintro _ _ ⟨⟩ ⟨⟩ member inside schema found
      obtain ⟨named, namedFound, valid⟩ := each member inside
      obtain rfl : named = schema := Option.some.inj (namedFound.symm.trans found)
      exact valid
    · rintro _ _ _ ⟨⟩ member inside unnamed
      obtain ⟨schema, found, _⟩ := each member inside
      rw [unnamed properties rfl] at found
      cases found

end Validates

end JsonSchema

open JsonSchema

/-! ## Types and fields -/

theorem JsonType.ofType_name_iff {type : JsonType} {value : JsonValue} :
    OfType type.name value ↔ type.accepts value = true := by
  cases type <;> cases value <;> simp [OfType, name, accepts]

theorem JsonType.hasType_names_iff {types : List JsonType} {value : JsonValue} :
    HasType (.array (types.map fun type => .text type.name)) value ↔
      types.any (fun type => type.accepts value) = true := by
  simp only [HasType, List.mem_map, JsonValue.text.injEq, List.any_eq_true,
    ← JsonType.ofType_name_iff]
  constructor
  · rintro ⟨_, ⟨type, listed, rfl⟩, typed⟩
    exact ⟨type, listed, typed⟩
  · rintro ⟨type, listed, typed⟩
    exact ⟨type.name, ⟨type, listed, rfl⟩, typed⟩

variable {root value : JsonValue}

theorem FieldShape.validates_iff (shape : FieldShape) :
    Validates root (.object shape.toEntries) value ↔ shape.accepts value = true := by
  cases shape with
  | oneOf types =>
      by_cases single : ∃ type, types = [type]
      · obtain ⟨type, rfl⟩ := single
        rw [toEntries, validates_type_iff, HasType, JsonType.ofType_name_iff]
        simp [accepts]
      · have several : toEntries (.oneOf types) =
            [("type", .array (types.map fun type => .text type.name))] := by
          rw [toEntries]
          intro type same
          exact single ⟨type, same⟩
        rw [several, validates_type_iff, JsonType.hasType_names_iff, accepts]
  | listOf element =>
      rw [toEntries, JsonType.name, validates_elements_iff]
      simp only [validates_type_iff, HasType, JsonType.ofType_name_iff]
      cases value with
      | array items => simp [accepts]
      | _ => simp [accepts]

theorem FieldSchema.validates_iff (schema : FieldSchema) (default : Option JsonValue) :
    Validates root (schema.toJson default) value ↔ schema.shape.accepts value = true := by
  have annotated : schema.toJson default =
      .object ((("description", .text schema.description) ::
        default.toList.map fun value => ("default", value)) ++ schema.shape.toEntries ++ []) := by
    rw [List.append_nil]
    rfl
  rw [annotated, validates_annotated, FieldShape.validates_iff]
  · cases default <;> simp [assertions, List.lookup_cons]
  · simp

/-! ## Objects of known parts -/

theorem lookup_map {parts : List α} {key : α → String} {image : α → β} {name : String} :
    (parts.map fun part => (key part, image part)).lookup name =
      (parts.find? fun part => key part = name).map image := by
  induction parts with
  | nil => rfl
  | cons part parts ih =>
      rw [List.map_cons, List.lookup_cons, ih, List.find?_cons]
      by_cases same : key part = name
      · simp [same]
      · simp [same, beq_false_of_ne (Ne.symm same)]

theorem acceptsEntries_iff {parts : List α} {key : α → String}
    {accepts : α → JsonValue → Bool} :
    acceptsEntries parts key accepts value = true ↔
      ∃ members, value = .object members ∧ ∀ member ∈ members,
        ∃ part, (parts.find? fun part => key part = member.1) = some part ∧
          accepts part member.2 = true := by
  cases value with
  | object members =>
      simp only [acceptsEntries, List.all_eq_true, JsonValue.object.injEq, exists_eq_left']
      refine forall₂_congr fun member _ => ?_
      cases parts.find? fun part => key part = member.1 <;> simp
  | _ => simp [acceptsEntries]

/-- A closed object of parts is valid as soon as the parts are. -/
theorem validates_parts_iff {parts : List α} {key : α → String} {written : α → JsonValue}
    {accepts : α → JsonValue → Bool}
    (each : ∀ part ∈ parts, ∀ value,
      Validates root (written part) value ↔ accepts part value = true) :
    Validates root (.object (closedObject (parts.map fun part => (key part, written part)))) value ↔
      acceptsEntries parts key accepts value = true := by
  rw [validates_closedObject_iff, acceptsEntries_iff]
  refine exists_congr fun members => and_congr_right fun _ => forall₂_congr fun member _ => ?_
  rw [lookup_map]
  cases found : parts.find? fun part => key part = member.1 with
  | none => simp
  | some part => simp [each part (List.mem_of_find?_eq_some found)]

/-! ## Sections and the whole schema -/

theorem SectionSchema.validates_iff (schema : SectionSchema) :
    Validates root schema.toDefinition value ↔ schema.accepts value = true := by
  rw [toDefinition, ← List.append_nil (_ ++ closedObject _), validates_annotated, accepts]
  · exact validates_parts_iff fun field _ value => field.validates_iff _
  · cases schema.description <;> simp [assertions, List.lookup_cons]
  · simp

theorem SectionSchema.validates_property_iff (schema : SectionSchema)
    (leads : ∀ target, Refers root ("#/definitions/" ++ schema.title) target ↔
      target = schema.toDefinition) :
    Validates root schema.toProperty value ↔ schema.accepts value = true := by
  have annotated : schema.toProperty =
      .object ([("default", schema.default)] ++
        [("allOf", .array [.object [("$ref", .text ("#/definitions/" ++ schema.title))]])] ++ []) :=
    rfl
  rw [annotated, validates_annotated, validates_conjunct_iff, validates_reference_iff leads,
    validates_iff]
  · simp [assertions, List.lookup_cons]
  · simp

/-- Parts of distinct keys are found under them. -/
theorem find?_key {parts : List α} {key : α → String} (distinct : (parts.map key).Nodup)
    {part : α} (member : part ∈ parts) :
    (parts.find? fun other => key other = key part) = some part := by
  induction parts with
  | nil => cases member
  | cons first parts ih =>
      obtain ⟨fresh, distinct⟩ := List.nodup_cons.mp distinct
      rcases List.mem_cons.mp member with rfl | later
      · simp
      · have differs : key first ≠ key part := by
          intro same
          exact fresh (same ▸ List.mem_map_of_mem later)
        rw [List.find?_cons_of_neg (by simpa using differs), ih distinct later]

namespace SettingsSchema

variable {schema : SettingsSchema}

theorem refers_iff (distinct : (schema.sections.map SectionSchema.title).Nodup)
    {part : SectionSchema} (member : part ∈ schema.sections) (target : JsonValue) :
    Refers schema.toJson ("#/definitions/" ++ part.title) target ↔ target = part.toDefinition := by
  have defined : schema.toJson.lookup? "definitions" = some (.object
      (schema.sections.map fun part => (part.title, part.toDefinition))) := rfl
  have found : (schema.sections.map fun part => (part.title, part.toDefinition)).lookup part.title =
      some part.toDefinition := by
    rw [lookup_map, find?_key distinct member, Option.map_some]
  constructor
  · rintro ⟨definitions, name, written, same, leads⟩
    obtain rfl : part.title = name := (String.append_right_inj _).mp same
    rw [defined, Option.some.injEq, JsonValue.object.injEq] at written
    rw [← written, found] at leads
    exact (Option.some.inj leads).symm
  · rintro rfl
    exact ⟨_, part.title, defined, rfl, found⟩

/-- The written schema describes the values that the schema accepts. -/
theorem validates_toJson_iff (distinct : (schema.sections.map SectionSchema.title).Nodup) :
    Validates schema.toJson schema.toJson value ↔ schema.accepts value = true := by
  have sections : ∀ part ∈ schema.sections, ∀ value,
      Validates schema.toJson part.toProperty value ↔ part.accepts value = true :=
    fun part member value => part.validates_property_iff (refers_iff distinct member)
  rw [toJson] at sections ⊢
  rw [validates_annotated]
  · exact validates_parts_iff sections
  · simp [assertions, List.lookup_cons]
  · simp [assertions, List.lookup_cons]

end SettingsSchema

end MemberDispatch
