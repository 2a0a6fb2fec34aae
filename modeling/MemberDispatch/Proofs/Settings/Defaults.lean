import MemberDispatch.Proofs.Settings.Overlay
import MemberDispatch.Proofs.Toml.Document

/-!
# Settings as defaults under a document

A document is loaded exactly if its sections are known, their keys are known,
and every item fits its field.  The settings then show, under each section and
key, the item of the document if there is one and the default if there is none.
What a section lacks is filled in field by field, and what the document lacks
section by section; both come to the same, and the order of the document plays
no part.
-/

set_option autoImplicit false

namespace MemberDispatch

open Toml (Item Table DistinctKeys)

/-! ## What fits -/

def LogSettings.shapes : List (String × Shape) :=
  [("level", .text), ("json", .boolean), ("stderr", .boolean)]

def TypeSettings.shapes : List (String × Shape) :=
  [("root_type", .text), ("context_type", .text), ("delegate_type", .text),
    ("trimmed_package_prefix", .text), ("internal_frame_prefixes", .sequence)]

def Settings.shapes : List (String × List (String × Shape)) :=
  [("logging", LogSettings.shapes), ("reflection", TypeSettings.shapes)]

/-- A table whose keys and items fit the fields of a section. -/
def FitsSection (shapes : List (String × Shape)) (item : Item) : Prop :=
  ∃ entries, item = .table entries ∧ FitsEach Shape.Fits shapes entries

theorem fitsSection_table {shapes : List (String × Shape)} {entries : Table} :
    FitsSection shapes (.table entries) ↔ FitsEach Shape.Fits shapes entries := by
  simp [FitsSection]

def Settings.Fits (document : Table) : Prop :=
  FitsEach FitsSection Settings.shapes document

/-! ## What is shown -/

def Toml.Item.entry? : Item → String → Option Item
  | .table entries, key => entries.lookup key
  | _, _ => none

/-- The item under a key of a section. -/
def entryIn? (document : Table) (part key : String) : Option Item :=
  (document.lookup part).bind fun item => item.entry? key

/-- The settings show the items of the document, and the defaults where it has
none. -/
def Settings.Overlays (document : Table) (settings : Settings) : Prop :=
  ∀ part key, entryIn? settings.toDocument part key =
    (entryIn? document part key).or (entryIn? (toDocument {}) part key)

/-! ## The fields of the sections -/

/-- Every field has the default that the whole section gives it. -/
theorem LogSettings.unset_eq_default : LogSettings.unset = {} :=
  rfl

theorem TypeSettings.unset_eq_default : TypeSettings.unset = {} :=
  rfl

theorem LogSettings.storeEach :
    Field.StoreEach LogSettings.toTable LogSettings.shapes LogSettings.fields := by
  refine .cons ⟨rfl, .ofText ?_⟩ <| .cons ⟨rfl, .ofBoolean ?_⟩ <| .cons ⟨rfl, .ofBoolean ?_⟩ .nil
  all_goals
    intro value base key
    simp only [toTable, List.lookup_cons, List.lookup_nil]
    grind

theorem TypeSettings.lookup_toTable (settings : TypeSettings) (key : String) :
    settings.toTable.lookup key =
      if key = "root_type" then some (.text settings.rootType)
      else if key = "context_type" then settings.contextType.map .text
      else if key = "delegate_type" then some (.text settings.delegateType)
      else if key = "trimmed_package_prefix" then some (.text settings.trimmedPackage)
      else if key = "internal_frame_prefixes" then
        some (.array (settings.internalFrames.map .text))
      else none := by
  cases named : settings.contextType <;>
    simp only [toTable, named, Option.toList, List.map_nil, List.map_cons, List.nil_append,
      List.cons_append, List.lookup_cons, List.lookup_nil, Option.map_none, Option.map_some] <;>
    grind

theorem TypeSettings.storeEach :
    Field.StoreEach TypeSettings.toTable TypeSettings.shapes TypeSettings.fields := by
  refine .cons ⟨rfl, .ofText ?_⟩ <| .cons ⟨rfl, .ofText ?_⟩ <| .cons ⟨rfl, .ofText ?_⟩ <|
    .cons ⟨rfl, .ofText ?_⟩ <| .cons ⟨rfl, .ofTexts ?_⟩ .nil
  all_goals
    intro value base key
    simp only [lookup_toTable]
    grind

/-! ## Settings are told apart by what they show -/

theorem LogSettings.eq_of_shown {settings other : LogSettings}
    (same : ∀ key, settings.toTable.lookup key = other.toTable.lookup key) : settings = other := by
  have level : some (Item.text settings.level) = some (Item.text other.level) := same "level"
  have json : some (Item.boolean settings.json) = some (Item.boolean other.json) := same "json"
  have stderr : some (Item.boolean settings.stderr) = some (Item.boolean other.stderr) :=
    same "stderr"
  cases settings
  cases other
  simp_all

theorem TypeSettings.eq_of_shown {settings other : TypeSettings}
    (same : ∀ key, settings.toTable.lookup key = other.toTable.lookup key) : settings = other := by
  simp only [lookup_toTable] at same
  have root : settings.rootType = other.rootType := by simpa using same "root_type"
  have context : settings.contextType = other.contextType :=
    Option.map_injective (fun _ _ => Item.text.inj) (by simpa using same "context_type")
  have delegate : settings.delegateType = other.delegateType := by
    simpa using same "delegate_type"
  have package : settings.trimmedPackage = other.trimmedPackage := by
    simpa using same "trimmed_package_prefix"
  have frames : settings.internalFrames = other.internalFrames :=
    List.map_injective_iff.mpr (fun _ _ => Item.text.inj)
      (by simpa using same "internal_frame_prefixes")
  cases settings
  cases other
  simp_all

namespace Settings

variable {document other : Table} {text : String} {settings : Settings}

/-- The sections that a document has are tables. -/
def SectionsAreTables (document : Table) : Prop :=
  ∀ part ∈ ["logging", "reflection"], ∀ item, (part, item) ∈ document →
    ∃ entries, item = .table entries

/-! ## Documents -/

theorem entryIn?_toDocument (settings : Settings) (part key : String) :
    entryIn? settings.toDocument part key =
      if part = "logging" then settings.logging.toTable.lookup key
      else if part = "reflection" then settings.types.toTable.lookup key
      else none := by
  rw [entryIn?, toDocument, List.lookup_cons, List.lookup_cons, List.lookup_nil]
  by_cases logging : part = "logging"
  · simp [logging, Toml.Item.entry?]
  · by_cases reflection : part = "reflection"
    · simp [reflection, Toml.Item.entry?]
    · simp [logging, reflection, beq_false_of_ne]

theorem ofDocument_isOk_iff (tables : SectionsAreTables document) :
    (∃ settings, ofDocument document = .ok settings) ↔ Fits document := by
  have takes : List.Forall₂
      (fun (field : Field Settings) (named : String × List (String × Shape)) =>
        field.name = named.1 ∧ ∀ entry ∈ document, entry.1 = named.1 → ∀ base,
          ((∃ next, field.put entry.2 base = .ok next) ↔ FitsSection named.2 entry.2))
      fields shapes := by
    refine .cons ⟨rfl, ?_⟩ (.cons ⟨rfl, ?_⟩ .nil)
    · rintro ⟨_, item⟩ member rfl base
      obtain ⟨entries, rfl⟩ := tables "logging" (by simp) item member
      exact exists_map_eq_ok_iff.trans
        ((LogSettings.storeEach.isOk_iff .unset).trans fitsSection_table.symm)
    · rintro ⟨_, item⟩ member rfl base
      obtain ⟨entries, rfl⟩ := tables "reflection" (by simp) item member
      exact exists_map_eq_ok_iff.trans
        ((TypeSettings.storeEach.isOk_iff .unset).trans fitsSection_table.symm)
  rw [Settings.Fits, fitsEach_iff_find?]
  exact Field.overlay_isOk_iff takes {}

/-- A section that is stored shows its items and, for the rest, the defaults of
its fields, which are those of the whole section. -/
theorem entryIn?_of_put {name : String} {entries : Table} {field : Field Settings}
    (distinct : DistinctKeys entries)
    (found : fields.find? (fun field => field.name = name) = some field) {base next : Settings}
    (stored : field.put (.table entries) base = .ok next) (part key : String) :
    entryIn? next.toDocument part key =
      if part = name then (entries.lookup key).or (entryIn? (toDocument {}) part key)
      else entryIn? base.toDocument part key := by
  have named : field.name = name := by simpa using List.find?_some found
  subst named
  have member := List.mem_of_find?_eq_some found
  rw [fields, List.mem_cons, List.mem_singleton] at member
  rcases member with rfl | rfl
  · obtain ⟨logging, overlaid, rfl⟩ := exists_of_map_eq_ok stored
    have shown := LogSettings.storeEach.lookup_eq distinct overlaid key
    rw [LogSettings.unset_eq_default] at shown
    simp only [entryIn?_toDocument, shown]
    grind
  · obtain ⟨types, overlaid, rfl⟩ := exists_of_map_eq_ok stored
    have shown := TypeSettings.storeEach.lookup_eq distinct overlaid key
    rw [TypeSettings.unset_eq_default] at shown
    simp only [entryIn?_toDocument, shown]
    grind

theorem mem_of_find? {name : String} {field : Field Settings}
    (found : fields.find? (fun field => field.name = name) = some field) :
    name ∈ ["logging", "reflection"] := by
  have named : field.name = name := by simpa using List.find?_some found
  exact named ▸ List.mem_map_of_mem (List.mem_of_find?_eq_some found)

theorem overlays_of_ofDocument (distinct : Item.Distinct (.table document))
    (tables : SectionsAreTables document) (loaded : ofDocument document = .ok settings) :
    Overlays document settings := by
  intro part key
  cases distinct with
  | table keys each =>
      have shown := Field.shown_of_overlay
        (fun settings part => entryIn? settings.toDocument part key)
        (fun part item => (item.entry? key).or (entryIn? (toDocument {}) part key))
        ?_ keys loaded part
      · rw [shown, entryIn?.eq_def document]
        cases document.lookup part <;> rfl
      · rintro ⟨name, item⟩ member field found base next stored part
        obtain ⟨entries, rfl⟩ := tables name (mem_of_find? found) item member
        cases each _ member with
        | table distinct => exact entryIn?_of_put distinct found stored part key

theorem eq_of_shown {other : Settings}
    (same : ∀ part key, entryIn? settings.toDocument part key = entryIn? other.toDocument part key) :
    settings = other := by
  have logging (key : String) :
      settings.logging.toTable.lookup key = other.logging.toTable.lookup key := by
    simpa [entryIn?_toDocument] using same "logging" key
  have types (key : String) :
      settings.types.toTable.lookup key = other.types.toTable.lookup key := by
    simpa [entryIn?_toDocument] using same "reflection" key
  exact congrArg₂ Settings.mk (LogSettings.eq_of_shown logging) (TypeSettings.eq_of_shown types)

theorem ofDocument_eq_ok_iff (distinct : Item.Distinct (.table document))
    (tables : SectionsAreTables document) :
    ofDocument document = .ok settings ↔ Fits document ∧ Overlays document settings := by
  constructor
  · intro loaded
    exact ⟨(ofDocument_isOk_iff tables).mp ⟨settings, loaded⟩,
      overlays_of_ofDocument distinct tables loaded⟩
  · rintro ⟨fits, overlays⟩
    obtain ⟨result, loaded⟩ := (ofDocument_isOk_iff tables).mpr fits
    have shown := overlays_of_ofDocument distinct tables loaded
    have same : result = settings := eq_of_shown fun part key =>
      (shown part key).trans (overlays part key).symm
    exact same ▸ loaded

end Settings

/-! ## The order of a document -/

/-- The same item, or a table with the same entries in another order. -/
inductive Toml.Item.Reordered : Item → Item → Prop where
  | same (item : Item) : Reordered item item
  | table {entries others : Table} (moved : entries.Perm others) :
      Reordered (.table entries) (.table others)

/-- The sections in any order, and the keys of each section in any order. -/
def Rearranges (document other : Table) : Prop :=
  ∃ moved, document.Perm moved ∧
    List.Forall₂ (fun entry changed => entry.1 = changed.1 ∧ entry.2.Reordered changed.2) moved other

namespace Toml.Item.Reordered

variable {item other : Item}

theorem entry?_eq (reordered : item.Reordered other) (distinct : item.Distinct) (key : String) :
    item.entry? key = other.entry? key := by
  cases reordered with
  | same => rfl
  | table moved =>
      cases distinct with
      | table keys each => exact keys.lookup_eq_of_perm moved key

theorem fitsSection {shapes : List (String × Shape)} (reordered : item.Reordered other)
    (fits : FitsSection shapes item) : FitsSection shapes other := by
  cases reordered with
  | same => exact fits
  | table moved =>
      rw [fitsSection_table] at fits ⊢
      exact fun entry member => fits entry (moved.mem_iff.mpr member)

end Toml.Item.Reordered

/-- Values under the same keys are found together. -/
theorem lookup_rel_of_forall₂ {α : Type} {related : α → α → Prop}
    {entries others : List (String × α)}
    (each : List.Forall₂ (fun entry other => entry.1 = other.1 ∧ related entry.2 other.2)
      entries others) (key : String) :
    Option.Rel related (entries.lookup key) (others.lookup key) := by
  induction each with
  | nil => exact .none
  | @cons entry other entries others pair each ih =>
      obtain ⟨same, relates⟩ := pair
      rw [List.lookup_cons, List.lookup_cons, ← same]
      cases key == entry.1 with
      | true => exact .some relates
      | false => exact ih

namespace Rearranges

variable {document other : Table}

theorem entryIn?_eq (rearranges : Rearranges document other)
    (distinct : Item.Distinct (.table document)) (part key : String) :
    entryIn? document part key = entryIn? other part key := by
  obtain ⟨moved, perm, each⟩ := rearranges
  cases distinct with
  | table keys items =>
      have found := lookup_rel_of_forall₂ each part
      rw [entryIn?, entryIn?, keys.lookup_eq_of_perm perm part]
      generalize other.lookup part = counterpart at found
      cases here : moved.lookup part with
      | none =>
          rw [here] at found
          cases found
          rfl
      | some item =>
          rw [here] at found
          cases found with
          | some reordered =>
              have member := perm.mem_iff.mpr (Toml.mem_of_lookup here)
              exact reordered.entry?_eq (items _ member) key

theorem fits (rearranges : Rearranges document other) (fits : Settings.Fits document) :
    Settings.Fits other := by
  obtain ⟨moved, perm, each⟩ := rearranges
  have fitsMoved : Settings.Fits moved := fun entry member => fits entry (perm.mem_iff.mpr member)
  clear fits perm
  induction each with
  | nil => exact fitsMoved
  | @cons entry changed entries others pair each ih =>
      obtain ⟨same, reordered⟩ := pair
      obtain ⟨⟨shapes, known, fitsHere⟩, rests⟩ := List.forall_mem_cons.mp fitsMoved
      refine List.forall_mem_cons.mpr ⟨⟨shapes, same ▸ known, ?_⟩, ih rests⟩
      exact reordered.fitsSection fitsHere

end Rearranges

namespace Settings

variable {document : Table} {text : String}

theorem Fits.sectionsAreTables (fits : Fits document) : SectionsAreTables document := by
  intro part _ item member
  obtain ⟨shapes, -, entries, rfl, -⟩ := fits (part, item) member
  exact ⟨entries, rfl⟩

/-- A document is loaded if its sections, their keys and the items all fit.  The
settings are then the defaults with the items of the document in their places,
so that documents agree on what neither of them has, and the order of a document
does not matter. -/
theorem ofText_overlays_defaults (read : Table.read? text = some document)
    (tables : SectionsAreTables document) :
    ((∃ settings, ofText text = .ok settings) ↔ Fits document) ∧
      (∀ settings, ofText text = .ok settings ↔ Fits document ∧ Overlays document settings) ∧
      ∀ settings, ofText text = .ok settings →
        (∀ other otherDocument otherSettings, Table.read? other = some otherDocument →
          SectionsAreTables otherDocument → ofText other = .ok otherSettings →
            ∀ part key, entryIn? document part key = none → entryIn? otherDocument part key = none →
              entryIn? settings.toDocument part key = entryIn? otherSettings.toDocument part key) ∧
          ∀ other rearranged, Table.read? other = some rearranged →
            Rearranges document rearranged → ofText other = .ok settings := by
  have loads {text : String} {document : Table} (read : Table.read? text = some document)
      (tables : SectionsAreTables document) (settings : Settings) :
      ofText text = .ok settings ↔ Fits document ∧ Overlays document settings := by
    rw [← ofDocument_eq_ok_iff (Toml.Table.distinct_of_read read) tables]
    exact ofText_eq_ok_iff read
  refine ⟨(ofText_isOk_iff read).trans (ofDocument_isOk_iff tables), loads read tables, ?_⟩
  intro settings loaded
  obtain ⟨fits, overlays⟩ := (loads read tables settings).mp loaded
  constructor
  · intro other otherDocument otherSettings readOther tablesOther loadedOther part key missing
      missingOther
    have overlaysOther := ((loads readOther tablesOther otherSettings).mp loadedOther).2
    rw [overlays, overlaysOther, missing, missingOther]
  · intro other rearranged readOther rearranges
    have fitsOther := rearranges.fits fits
    refine (loads readOther fitsOther.sectionsAreTables settings).mpr ⟨fitsOther, ?_⟩
    intro part key
    rw [overlays, rearranges.entryIn?_eq (Toml.Table.distinct_of_read read)]

/-! ## Two sections in two orders -/

def baseText : String :=
  "[logging]\njson = true\n\n[reflection]\nroot_type = \"app.Base\"\ncontext_type = \"\"\n"

def baseTextMoved : String :=
  "[reflection]\ncontext_type = \"\"\nroot_type = \"app.Base\"\n\n[logging]\njson = true\n"

def baseDocument : Table :=
  [("logging", .table [("json", .boolean true)]),
    ("reflection", .table [("root_type", .text "app.Base"), ("context_type", .text "")])]

def baseDocumentMoved : Table :=
  [("reflection", .table [("context_type", .text ""), ("root_type", .text "app.Base")]),
    ("logging", .table [("json", .boolean true)])]

theorem read_baseText : Table.read? baseText = some baseDocument := by
  decide +kernel

theorem read_baseTextMoved : Table.read? baseTextMoved = some baseDocumentMoved := by
  decide +kernel

theorem sectionsAreTables_base : SectionsAreTables baseDocument := by
  intro part _ item member
  simp only [baseDocument, List.mem_cons, Prod.mk.injEq, List.not_mem_nil, or_false] at member
  rcases member with ⟨-, rfl⟩ | ⟨-, rfl⟩ <;> exact ⟨_, rfl⟩

theorem baseText_overlays_defaults :
    ofText baseText = .ok ⟨{ json := true }, { rootType := "app.Base", contextType := some "" }⟩ ∧
      ofText baseTextMoved = ofText baseText := by
  have base := ofText_overlays_defaults read_baseText sectionsAreTables_base
  have loaded : ofText baseText =
      .ok ⟨{ json := true }, { rootType := "app.Base", contextType := some "" }⟩ :=
    ofText_of_read read_baseText rfl
  have moved : Rearranges baseDocument baseDocumentMoved :=
    ⟨_, .swap _ _ _, .cons ⟨rfl, .table (.swap _ _ _)⟩ (.cons ⟨rfl, .same _⟩ .nil)⟩
  have loadedMoved := (base.2.2 _ loaded).2 baseTextMoved baseDocumentMoved read_baseTextMoved moved
  exact ⟨loaded, loadedMoved.trans loaded.symm⟩

end Settings

end MemberDispatch
