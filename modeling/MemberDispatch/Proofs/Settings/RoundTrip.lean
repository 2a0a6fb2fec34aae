import MemberDispatch.Proofs.Outcome
import MemberDispatch.Scope
import MemberDispatch.Settings.Encode
import MemberDispatch.Workspace.Discovery

/-!
# Settings that are written and loaded again

Writing and loading disagree about one field.  A context type that is absent
is written as no entry, and a section without that entry keeps the default,
which is a context type.  All other fields are always written and come back as
they were.  Settings that have been loaded have a context type, so they come
back whole.
-/

set_option autoImplicit false

namespace MemberDispatch

open Toml (Item Table)

/-! ## Overlays, entry by entry -/

namespace Field

variable {σ : Type}

theorem overlay_cons {fields : List (Field σ)} {field : Field σ} {name : String}
    (found : (fields.find? fun field => field.name = name) = some field) (base : σ)
    (item : Item) (rest : Table) :
    overlay fields base ((name, item) :: rest) =
      (field.put item base).bind fun next => overlay fields next rest := by
  simp only [overlay, List.foldlM_cons, found]
  rfl

theorem overlay_cons_unknown {fields : List (Field σ)} {name : String}
    (unknown : (fields.find? fun field => field.name = name) = none) (base : σ) (item : Item)
    (rest : Table) :
    overlay fields base ((name, item) :: rest) =
      .error (.unknownField name (fields.map Field.name)) := by
  simp only [overlay, List.foldlM_cons, unknown]
  rfl

/-- Texts that are written as an array are read as they were. -/
theorem mapM_textItem (texts : List String) :
    (texts.map Item.text).mapM textItem = .ok texts := by
  induction texts with
  | nil => rfl
  | cons text texts rest =>
      rw [List.map_cons, List.mapM_cons, rest]
      rfl

/-! ## What a section leaves as it is -/

/-- The field leaves `P` as it is, whatever item it is given. -/
def Keeps (P : σ → Prop) (field : Field σ) : Prop :=
  ∀ item current next, field.put item current = .ok next → P current → P next

variable {P : σ → Prop} {fields : List (Field σ)}

theorem Keeps.ofText {name : String} {put : String → σ → σ}
    (kept : ∀ value current, P current → P (put value current)) :
    (Field.ofText name put).Keeps P := by
  intro item current next stored holds
  cases item with
  | text value =>
      cases stored
      exact kept value current holds
  | _ => cases stored

theorem Keeps.ofTexts {name : String} {put : List String → σ → σ}
    (kept : ∀ values current, P current → P (put values current)) :
    (Field.ofTexts name put).Keeps P := by
  intro item current next stored holds
  cases item with
  | array items =>
      obtain ⟨values, -, rfl⟩ := exists_of_map_eq_ok stored
      exact kept values current holds
  | _ => cases stored

theorem Keeps.overlay (keeps : ∀ field ∈ fields, field.Keeps P) (entries : Table) {base result : σ}
    (done : overlay fields base entries = .ok result) (holds : P base) : P result := by
  induction entries generalizing base with
  | nil =>
      cases done
      exact holds
  | cons entry entries rest =>
      cases found : fields.find? fun field => field.name = entry.1 with
      | none =>
          rw [overlay_cons_unknown found] at done
          cases done
      | some field =>
          rw [overlay_cons found] at done
          obtain ⟨next, stored, done⟩ := exists_of_bind_eq_ok done
          exact rest done (keeps field (List.mem_of_find?_eq_some found) _ base next stored holds)

theorem Keeps.overlayInOrder (keeps : ∀ field ∈ fields, field.Keeps P) (items : List Item)
    {base result : σ} (done : overlayInOrder fields base items = .ok result) (holds : P base) :
    P result := by
  induction fields generalizing items base with
  | nil =>
      cases done
      exact holds
  | cons field fields rest =>
      cases items with
      | nil =>
          cases done
          exact holds
      | cons item items =>
          obtain ⟨next, stored, done⟩ := exists_of_bind_eq_ok done
          exact rest (fun later member => keeps later (List.mem_cons_of_mem field member)) items
            done (keeps field List.mem_cons_self item base next stored holds)

theorem Keeps.overlaySection (keeps : ∀ field ∈ fields, field.Keeps P) {title : String}
    {item : Item} {base result : σ} (done : overlaySection title fields base item = .ok result)
    (holds : P base) : P result := by
  cases item with
  | table entries => exact Keeps.overlay keeps entries done holds
  | array items => exact Keeps.overlayInOrder keeps items done holds
  | text | integer | float | boolean | moment => cases done

end Field

/-! ## Loaded settings -/

/-- The class of the leading parameter is named, be it with an empty name. -/
def TypeSettings.NamesContext (settings : TypeSettings) : Prop :=
  settings.contextType ≠ none

theorem TypeSettings.fields_keep_namesContext :
    ∀ field ∈ TypeSettings.fields, field.Keeps NamesContext := by
  simp only [fields, List.forall_mem_cons, List.not_mem_nil, false_implies, implies_true, and_true]
  exact ⟨.ofText fun _ _ named => named, .ofText fun value _ _ => Option.some_ne_none value,
    .ofText fun _ _ named => named, .ofText fun _ _ named => named, .ofTexts fun _ _ named => named⟩

theorem Settings.fields_keep_namesContext :
    ∀ field ∈ Settings.fields, field.Keeps fun settings => settings.types.NamesContext := by
  simp only [fields, List.forall_mem_cons, List.not_mem_nil, false_implies, implies_true, and_true]
  constructor
  · intro item current next stored named
    obtain ⟨logging, -, rfl⟩ := exists_of_map_eq_ok stored
    exact named
  · intro item current next stored _
    obtain ⟨types, overlaid, rfl⟩ := exists_of_map_eq_ok stored
    exact Field.Keeps.overlaySection TypeSettings.fields_keep_namesContext overlaid
      (Option.some_ne_none _)

/-- No text takes the context type away. -/
theorem Settings.namesContext_of_ofText {settings : Settings} {text : String}
    (loaded : Settings.ofText text = .ok settings) : settings.types.NamesContext := by
  unfold Settings.ofText at loaded
  cases written : Table.read? text with
  | none => simp [written] at loaded
  | some document =>
      cases overlaid : Settings.ofDocument document with
      | error fault => simp [written, overlaid] at loaded
      | ok result =>
          obtain rfl : result = settings := by simpa [written, overlaid] using loaded
          exact Field.Keeps.overlay fields_keep_namesContext document overlaid
            (Option.some_ne_none _)

/-! ## Written settings -/

theorem LogSettings.overlay_toTable (settings base : LogSettings) :
    Field.overlay LogSettings.fields base settings.toTable = .ok settings :=
  rfl

/-- An absent context type is the one field whose old value stays. -/
theorem TypeSettings.overlay_toTable (settings base : TypeSettings) :
    Field.overlay TypeSettings.fields base settings.toTable =
      .ok { settings with contextType := settings.contextType <|> base.contextType } := by
  have frames (current : TypeSettings) :
      Field.overlay TypeSettings.fields current
          [("internal_frame_prefixes", .array (settings.internalFrames.map .text))] =
        .ok { current with internalFrames := settings.internalFrames } := by
    refine (Field.overlay_cons rfl current _ []).trans ?_
    simp only [Field.ofTexts, Field.mapM_textItem]
    rfl
  cases named : settings.contextType with
  | none =>
      rw [toTable, named]
      exact frames { base with
        rootType := settings.rootType
        delegateType := settings.delegateType
        trimmedPackage := settings.trimmedPackage }
  | some name =>
      rw [toTable, named]
      exact frames { base with
        rootType := settings.rootType
        contextType := some name
        delegateType := settings.delegateType
        trimmedPackage := settings.trimmedPackage }

namespace Settings

/-- The settings after they were written and loaded: the convention of the
leading parameter, where it was off for want of a name, is on again. -/
def reloaded (settings : Settings) : Settings :=
  let default : TypeSettings := {}
  { settings with
    types := { settings.types with
      contextType := settings.types.contextType <|> default.contextType } }

theorem ofDocument_toDocument (settings : Settings) :
    ofDocument settings.toDocument = .ok settings.reloaded := by
  refine (Field.overlay_cons rfl _ _ _).trans ?_
  simp only [Field.overlaySection, LogSettings.overlay_toTable]
  refine (Field.overlay_cons rfl _ _ _).trans ?_
  simp only [Field.overlaySection, TypeSettings.overlay_toTable]
  rfl

theorem reloaded_eq_iff (settings : Settings) :
    settings.reloaded = settings ↔ settings.types.NamesContext := by
  obtain ⟨logging, ⟨root, context, delegate, package, frames⟩⟩ := settings
  cases context <;> simp [reloaded, TypeSettings.NamesContext, TypeSettings.defaultContextType]

theorem ofText_eq_ok_iff {document : Table} {text : String}
    (read : Table.read? text = some document) {settings : Settings} :
    ofText text = .ok settings ↔ ofDocument document = .ok settings := by
  rw [ofText, read]
  cases overlaid : ofDocument document <;> simp [overlaid]

theorem ofText_isOk_iff {document : Table} {text : String}
    (read : Table.read? text = some document) :
    (∃ settings, ofText text = .ok settings) ↔ ∃ settings, ofDocument document = .ok settings :=
  exists_congr fun _ => ofText_eq_ok_iff read

theorem ofText_of_read {document : Table} {text : String} (read : Table.read? text = some document)
    {settings : Settings} (overlaid : ofDocument document = .ok settings) :
    ofText text = .ok settings :=
  (ofText_eq_ok_iff read).mpr overlaid

/-- Settings that are written and loaded again are the settings they were, except
that a context type is named afterwards.  So exactly the settings without a
context type are lost; no text stands for them, and whatever was loaded once
is loaded again unchanged. -/
theorem reload {settings : Settings} {text : String}
    (written : Table.read? text = some settings.toDocument) :
    ofText text = .ok settings.reloaded ∧
      (ofText text = .ok settings ↔ settings.types.contextType ≠ none) ∧
      ∀ source, ofText source = .ok settings → ofText text = .ok settings := by
  have loads := ofText_of_read written settings.ofDocument_toDocument
  have whole : ofText text = .ok settings ↔ settings.types.NamesContext := by
    rw [loads, Except.ok.injEq, reloaded_eq_iff]
  exact ⟨loads, whole, fun source loaded => whole.mpr (namesContext_of_ofText loaded)⟩

/-- The dispatcher of the loaded settings has the convention that the written
ones turned off. -/
theorem context_of_reloaded {settings : Settings} (absent : settings.types.contextType = none)
    {store : Store} {callSite : List StackFrame} {before after : Scope}
    (made : Scope.ofSettings store settings.types callSite = .ok before)
    (remade : Scope.ofSettings store settings.reloaded.types callSite = .ok after) :
    before.context = none ∧ after.context ≠ none := by
  constructor
  · simp only [Scope.ofSettings, absent] at made
    obtain ⟨root, -, made⟩ := exists_of_bind_eq_ok made
    obtain ⟨context, looked, made⟩ := exists_of_bind_eq_ok made
    obtain ⟨delegate, -, made⟩ := exists_of_bind_eq_ok made
    cases looked
    cases made
    rfl
  · simp only [Scope.ofSettings, reloaded, absent] at remade
    obtain ⟨root, -, remade⟩ := exists_of_bind_eq_ok remade
    obtain ⟨context, looked, remade⟩ := exists_of_bind_eq_ok remade
    obtain ⟨delegate, -, remade⟩ := exists_of_bind_eq_ok remade
    obtain ⟨id, -, rfl⟩ := exists_of_map_eq_ok looked
    cases remade
    simp

/-! ## Settings without a context type -/

/-- A dispatcher without the convention of the leading parameter. -/
def contextFree : Settings where
  types := { contextType := none, internalFrames := [] }

def contextFreeText : String :=
  "[logging]\nlevel = \"info\"\njson = false\nstderr = true\n\n" ++
    "[reflection]\nroot_type = \"java.lang.Object\"\ndelegate_type = \"stubble.Delegate\"\n" ++
    "trimmed_package_prefix = \"java.lang.\"\ninternal_frame_prefixes = []\n"

theorem read_contextFreeText : Table.read? contextFreeText = some contextFree.toDocument := by
  decide +kernel

theorem contextFree_reload :
    Table.read? contextFreeText = some contextFree.toDocument ∧
      ofText contextFreeText = .ok contextFree.reloaded :=
  ⟨read_contextFreeText, (reload read_contextFreeText).1⟩

theorem contextFree_lost :
    Table.read? contextFreeText = some contextFree.toDocument ∧
      ofText contextFreeText ≠ .ok contextFree := by
  refine ⟨read_contextFreeText, fun whole => ?_⟩
  exact namesContext_of_ofText whole rfl

end Settings

end MemberDispatch
