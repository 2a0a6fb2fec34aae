import MemberDispatch.Proofs.Settings.RoundTrip
import MemberDispatch.Proofs.Settings.SchemaMeaning
import MemberDispatch.Proofs.Toml.Draft

/-!
# Overlays of tables

A table is overlaid entry by entry, and what an entry has changed has no
influence on whether the next one is taken.  So a table is taken as soon as
each of its entries is; and where its keys are distinct, every field shows the
item under its name, or what it showed before.
-/

set_option autoImplicit false

namespace MemberDispatch

open Toml (Item Table DistinctKeys)

/-! ## What fits -/

inductive Shape.Fits : Shape → Item → Prop where
  | text (value : String) : Fits .text (.text value)
  | boolean (value : Bool) : Fits .boolean (.boolean value)
  | sequence (values : List String) : Fits .sequence (.array (values.map .text))

/-- All keys are known, and their items fit what stands under the key. -/
def FitsEach {κ : Type} (fits : κ → Item → Prop) (known : List (String × κ)) (entries : Table) :
    Prop :=
  ∀ entry ∈ entries, ∃ kind, known.lookup entry.1 = some kind ∧ fits kind entry.2

theorem fitsEach_iff_find? {κ : Type} {fits : κ → Item → Prop} {known : List (String × κ)}
    {entries : Table} :
    FitsEach fits known entries ↔ ∀ entry ∈ entries, ∃ named,
      known.find? (fun named => named.1 = entry.1) = some named ∧ fits named.2 entry.2 := by
  have found (name : String) :
      known.lookup name = (known.find? fun named => named.1 = name).map Prod.snd := by
    rw [← lookup_map]
    exact congrArg _ (List.map_id known).symm
  simp only [FitsEach, found, Option.map_eq_some_iff]
  refine forall₂_congr fun entry _ => ⟨?_, ?_⟩
  · rintro ⟨_, ⟨named, known, rfl⟩, fits⟩
    exact ⟨named, known, fits⟩
  · rintro ⟨named, known, fits⟩
    exact ⟨named.2, ⟨named, known, rfl⟩, fits⟩

namespace Field

/-! ## Entry by entry -/

variable {α β σ : Type} {fields : List (Field σ)} {entries : Table}

/-- Parts under the names of the fields are found along with them. -/
theorem find?_of_named {related : Field σ → α → Prop} {key : α → String} {parts : List α}
    (named : List.Forall₂ (fun field part => field.name = key part ∧ related field part)
      fields parts) (name : String) :
    (parts.find? (fun part => key part = name) = none ∧
        fields.find? (fun field => field.name = name) = none) ∨
      ∃ part field, parts.find? (fun part => key part = name) = some part ∧
        fields.find? (fun field => field.name = name) = some field ∧ related field part := by
  induction named with
  | nil => exact .inl ⟨rfl, rfl⟩
  | @cons field part fields parts pair named ih =>
      obtain ⟨same, relates⟩ := pair
      rw [List.find?_cons, List.find?_cons, same]
      by_cases here : key part = name
      · simp only [here, decide_true]
        exact .inr ⟨part, field, rfl, rfl, relates⟩
      · simpa [here] using ih

/-- Fields that take or refuse an item whatever they held before. -/
theorem overlay_isOk_iff {takes : α → Item → Prop} {key : α → String} {parts : List α}
    (named : List.Forall₂ (fun field part => field.name = key part ∧
      ∀ entry ∈ entries, entry.1 = key part → ∀ base,
        ((∃ next, field.put entry.2 base = .ok next) ↔ takes part entry.2)) fields parts)
    (base : σ) :
    (∃ result, overlay fields base entries = .ok result) ↔
      ∀ entry ∈ entries, ∃ part,
        parts.find? (fun part => key part = entry.1) = some part ∧ takes part entry.2 := by
  induction entries generalizing base with
  | nil => exact iff_of_true ⟨base, rfl⟩ (by simp)
  | cons entry entries ih =>
      have rests := ih (named.imp fun _ _ pair =>
        ⟨pair.1, fun later member => pair.2 later (List.mem_cons_of_mem entry member)⟩)
      rw [List.forall_mem_cons]
      rcases find?_of_named named entry.1 with ⟨unknown, unnamed⟩ | ⟨part, field, known, found, steady⟩
      · rw [overlay_cons_unknown unnamed, unknown]
        simp
      · have same : key part = entry.1 := by simpa using List.find?_some known
        rw [overlay_cons found, exists_bind_eq_ok_iff, known]
        simp only [rests, exists_and_right, Option.some.injEq, exists_eq_left',
          steady entry List.mem_cons_self same.symm base]

/-- Fields that show their own item, and let the others show what they did. -/
theorem shown_of_overlay (shown : σ → String → β) (image : String → Item → β)
    (shows : ∀ entry ∈ entries, ∀ field,
      fields.find? (fun field => field.name = entry.1) = some field →
        ∀ base next, field.put entry.2 base = .ok next → ∀ key,
          shown next key = if key = entry.1 then image key entry.2 else shown base key)
    (distinct : DistinctKeys entries) {base result : σ}
    (done : overlay fields base entries = .ok result) (key : String) :
    shown result key = ((entries.lookup key).map (image key)).getD (shown base key) := by
  induction entries generalizing base with
  | nil =>
      cases done
      rfl
  | cons entry entries ih =>
      obtain ⟨here, later⟩ := List.forall_mem_cons.mp shows
      obtain ⟨fresh, distinct⟩ := List.nodup_cons.mp distinct
      cases found : fields.find? fun field => field.name = entry.1 with
      | none =>
          rw [overlay_cons_unknown found] at done
          cases done
      | some field =>
          rw [overlay_cons found] at done
          obtain ⟨next, stored, done⟩ := exists_of_bind_eq_ok done
          rw [ih later distinct done, here field found base next stored, List.lookup_cons]
          by_cases same : key = entry.1
          · -- No later entry has the key, so that this one stays.
            subst same
            simp [Toml.lookup_eq_none_iff_keys.mpr fresh]
          · simp [same, beq_false_of_ne same]

/-! ## Fields that store what they are given -/

variable {name : String}

/-- The field takes what has the shape, and shows it; the other fields show what
they did. -/
structure Stores (shown : σ → Table) (shape : Shape) (field : Field σ) : Prop where
  taken : ∀ item base, (∃ next, field.put item base = .ok next) ↔ shape.Fits item
  shows : ∀ item base next, field.put item base = .ok next →
    ∀ key, (shown next).lookup key = if key = field.name then some item else (shown base).lookup key

/-- A field that takes the items that its values are written as. -/
theorem Stores.of_written {τ : Type} {shown : σ → Table} {shape : Shape} {field : Field σ}
    (write : τ → Item) (put : τ → σ → σ)
    (puts : ∀ item base next, field.put item base = .ok next ↔
      ∃ value, item = write value ∧ put value base = next)
    (fits : ∀ item, shape.Fits item ↔ ∃ value, item = write value)
    (shows : ∀ value base key, (shown (put value base)).lookup key =
      if key = field.name then some (write value) else (shown base).lookup key) :
    field.Stores shown shape where
  taken item base := by
    simp [puts, fits]
  shows item base next stored := by
    obtain ⟨value, rfl, rfl⟩ := (puts item base next).mp stored
    exact shows value base

theorem Stores.ofText {shown : σ → Table} {put : String → σ → σ}
    (shows : ∀ value base key, (shown (put value base)).lookup key =
      if key = name then some (.text value) else (shown base).lookup key) :
    (Field.ofText name put).Stores shown .text := by
  refine .of_written .text put ?_ ?_ shows
  · intro item base next
    cases item <;> simp [Field.ofText]
  · intro item
    constructor
    · intro fits
      cases fits with
      | text value => exact ⟨value, rfl⟩
    · intro written
      obtain ⟨value, rfl⟩ := written
      exact .text value

theorem Stores.ofBoolean {shown : σ → Table} {put : Bool → σ → σ}
    (shows : ∀ value base key, (shown (put value base)).lookup key =
      if key = name then some (.boolean value) else (shown base).lookup key) :
    (Field.ofBoolean name put).Stores shown .boolean := by
  refine .of_written .boolean put ?_ ?_ shows
  · intro item base next
    cases item <;> simp [Field.ofBoolean]
  · intro item
    constructor
    · intro fits
      cases fits with
      | boolean value => exact ⟨value, rfl⟩
    · intro written
      obtain ⟨value, rfl⟩ := written
      exact .boolean value

/-- Items that are all texts are read as these texts. -/
theorem mapM_textItem_eq_ok_iff {items : List Item} {texts : List String} :
    items.mapM textItem = .ok texts ↔ items = texts.map .text := by
  constructor
  · intro read
    induction items generalizing texts with
    | nil =>
        cases read
        rfl
    | cons item items ih =>
        rw [List.mapM_cons] at read
        obtain ⟨text, first, read⟩ := exists_of_bind_eq_ok read
        obtain ⟨others, rest, ⟨⟩⟩ := exists_of_bind_eq_ok read
        cases item with
        | text value =>
            cases first
            rw [List.map_cons, ih rest]
        | _ => cases first
  · intro written
    exact written ▸ mapM_textItem texts

theorem Stores.ofTexts {shown : σ → Table} {put : List String → σ → σ}
    (shows : ∀ values base key, (shown (put values base)).lookup key =
      if key = name then some (.array (values.map .text)) else (shown base).lookup key) :
    (Field.ofTexts name put).Stores shown .sequence := by
  refine .of_written (fun values : List String => .array (values.map .text)) put ?_ ?_ shows
  · intro item base next
    cases item with
    | array items =>
        simp only [Field.ofTexts, map_eq_ok_iff, mapM_textItem_eq_ok_iff, Item.array.injEq]
    | _ => simp [Field.ofTexts]
  · intro item
    constructor
    · intro fits
      cases fits with
      | sequence values => exact ⟨values, rfl⟩
    · intro written
      obtain ⟨values, rfl⟩ := written
      exact .sequence values

/-! ## Tables of such fields -/

variable {shown : σ → Table} {shapes : List (String × Shape)}

/-- Fields with their names and shapes, one by one. -/
def StoreEach (shown : σ → Table) (shapes : List (String × Shape)) (fields : List (Field σ)) :
    Prop :=
  List.Forall₂ (fun field named => field.name = named.1 ∧ field.Stores shown named.2) fields shapes

theorem StoreEach.isOk_iff (stores : StoreEach shown shapes fields) (base : σ) :
    (∃ result, overlay fields base entries = .ok result) ↔
      FitsEach Shape.Fits shapes entries := by
  rw [fitsEach_iff_find?]
  refine overlay_isOk_iff (stores.imp fun field named pair => ⟨pair.1, ?_⟩) base
  intro entry _ _ base
  exact pair.2.taken entry.2 base

theorem StoreEach.lookup_eq (stores : StoreEach shown shapes fields)
    (distinct : DistinctKeys entries) {base result : σ}
    (done : overlay fields base entries = .ok result) (key : String) :
    (shown result).lookup key = (entries.lookup key).or ((shown base).lookup key) := by
  have each := shown_of_overlay (fun settings key => (shown settings).lookup key)
    (fun _ item => some item) ?_ distinct done key
  · rw [each]
    cases entries.lookup key <;> rfl
  · intro entry _ field found base next stored key
    rcases find?_of_named stores entry.1 with ⟨-, unnamed⟩ | ⟨named, other, -, same, storing⟩
    · rw [unnamed] at found
      cases found
    · rw [same, Option.some.injEq] at found
      subst found
      have name : other.name = entry.1 := by simpa using List.find?_some same
      exact name ▸ storing.shows entry.2 base next stored key

end Field

end MemberDispatch
