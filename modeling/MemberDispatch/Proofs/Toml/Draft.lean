import Mathlib.Data.List.Basic
import Mathlib.Data.List.Nodup
import MemberDispatch.Toml.Draft

/-!
# Keys of a table under construction

A key is added where the table has none of that name, and an entry is replaced
under its own key, at whatever depth a header or a dotted key leads to.  So at
every time all tables of a document have distinct keys, and so have those of
the finished document.
-/

set_option autoImplicit false

namespace MemberDispatch.Toml

variable {α : Type}

/-- No key occurs twice. -/
def DistinctKeys (entries : List (String × α)) : Prop :=
  (entries.map Prod.fst).Nodup

theorem lookup_eq_none_iff_keys {entries : List (String × α)} {key : String} :
    entries.lookup key = none ↔ key ∉ entries.map Prod.fst := by
  rw [List.lookup_eq_none_iff, List.mem_map]
  constructor
  · rintro missing ⟨entry, member, rfl⟩
    simpa using missing entry member
  · intro absent entry member
    rw [bne_iff_ne]
    rintro rfl
    exact absent ⟨entry, member, rfl⟩

theorem mem_of_lookup {entries : List (String × α)} {key : String} {value : α}
    (found : entries.lookup key = some value) : (key, value) ∈ entries := by
  obtain ⟨before, after, split, -⟩ := List.lookup_eq_some_iff.mp found
  simp [split]

theorem DistinctKeys.lookup_eq_some_iff {entries : List (String × α)}
    (distinct : DistinctKeys entries) {key : String} {value : α} :
    entries.lookup key = some value ↔ (key, value) ∈ entries := by
  refine ⟨mem_of_lookup, fun member => ?_⟩
  induction entries with
  | nil => cases member
  | cons entry entries ih =>
      obtain ⟨fresh, distinct⟩ := List.nodup_cons.mp distinct
      rcases List.mem_cons.mp member with rfl | later
      · simp
      · have differs : key ≠ entry.1 := by
          rintro rfl
          exact fresh (List.mem_map.mpr ⟨(entry.1, value), later, rfl⟩)
        rw [List.lookup_cons, beq_false_of_ne differs]
        exact ih distinct later

theorem DistinctKeys.lookup_eq_of_perm {entries others : List (String × α)}
    (distinct : DistinctKeys entries) (same : entries.Perm others) (key : String) :
    entries.lookup key = others.lookup key := by
  have distinctOthers : DistinctKeys others := (same.map Prod.fst).nodup_iff.mp distinct
  refine Option.ext fun value => ?_
  rw [distinct.lookup_eq_some_iff, distinctOthers.lookup_eq_some_iff, same.mem_iff]

/-- All tables of the item, at every depth, have distinct keys. -/
inductive Item.Distinct : Item → Prop where
  | text (value : String) : Distinct (.text value)
  | integer (value : Int) : Distinct (.integer value)
  | float (value : Float) : Distinct (.float value)
  | boolean (value : Bool) : Distinct (.boolean value)
  | moment (written : String) : Distinct (.moment written)
  | array {items : List Item} (each : ∀ item ∈ items, Distinct item) : Distinct (.array items)
  | table {entries : Table} (distinct : DistinctKeys entries)
      (each : ∀ entry ∈ entries, Distinct entry.2) : Distinct (.table entries)

/-- The same of a table under construction. -/
inductive Draft.Distinct : Draft → Prop where
  | value {item : Item} (distinct : item.Distinct) : Distinct (.value item)
  | table {origin : Origin} {entries : DraftTable} (distinct : DistinctKeys entries)
      (each : ∀ entry ∈ entries, Distinct entry.2) : Distinct (.table origin entries)
  | tables {elements : List DraftTable} (distinct : ∀ element ∈ elements, DistinctKeys element)
      (each : ∀ element ∈ elements, ∀ entry ∈ element, Distinct entry.2) :
      Distinct (.tables elements)

/-- A table of which all this holds. -/
structure DraftTable.Distinct (entries : DraftTable) : Prop where
  keys : DistinctKeys entries
  each : ∀ entry ∈ entries, Draft.Distinct entry.2

variable {entries changed : DraftTable} {key : String} {draft : Draft}

/-! ## Changes of a table -/

theorem distinct_nil : DraftTable.Distinct [] :=
  ⟨List.nodup_nil, fun _ member => absurd member List.not_mem_nil⟩

theorem Draft.Distinct.of_table {origin : Origin} (distinct : Draft.Distinct (.table origin entries)) :
    DraftTable.Distinct entries := by
  cases distinct with
  | table keys each => exact ⟨keys, each⟩

theorem DraftTable.Distinct.toDraft (distinct : DraftTable.Distinct entries) (origin : Origin) :
    Draft.Distinct (.table origin entries) :=
  .table distinct.keys distinct.each

theorem Draft.Distinct.of_element {elements : List DraftTable} {element : DraftTable}
    (distinct : Draft.Distinct (.tables elements)) (member : element ∈ elements) :
    DraftTable.Distinct element := by
  cases distinct with
  | tables keys each => exact ⟨keys element member, each element member⟩

theorem draft_tables {elements : List DraftTable}
    (distinct : ∀ element ∈ elements, DraftTable.Distinct element) :
    Draft.Distinct (.tables elements) :=
  .tables (fun element member => (distinct element member).keys)
    fun element member => (distinct element member).each

theorem DraftTable.Distinct.of_lookup (distinct : DraftTable.Distinct entries)
    (found : entries.lookup key = some draft) : draft.Distinct :=
  distinct.each (key, draft) (mem_of_lookup found)

theorem DraftTable.Distinct.append (distinct : DraftTable.Distinct entries)
    (added : draft.Distinct) (missing : entries.lookup key = none) :
    DraftTable.Distinct (entries ++ [(key, draft)]) where
  keys := by
    have fresh := lookup_eq_none_iff_keys.mp missing
    rw [DistinctKeys, List.map_append, List.map_singleton, ← List.concat_eq_append]
    exact distinct.keys.concat fresh
  each := by
    intro entry member
    rcases List.mem_append.mp member with old | new
    · exact distinct.each entry old
    · rw [List.mem_singleton.mp new]
      exact added

theorem DraftTable.Distinct.addEntry (distinct : DraftTable.Distinct entries)
    (added : draft.Distinct) (done : Toml.addEntry key draft entries = some changed) :
    DraftTable.Distinct changed := by
  rw [Toml.addEntry] at done
  cases found : entries.lookup key with
  | some old => simp [found] at done
  | none =>
      simp only [found, Option.some.injEq] at done
      exact done ▸ distinct.append added found

theorem DraftTable.Distinct.replaceEntry (distinct : DraftTable.Distinct entries)
    (added : draft.Distinct) : DraftTable.Distinct (replaceEntry entries key draft) where
  keys := by
    have same : (Toml.replaceEntry entries key draft).map Prod.fst = entries.map Prod.fst := by
      rw [Toml.replaceEntry, List.map_map]
      refine List.map_congr_left fun entry _ => ?_
      by_cases named : entry.1 = key <;> simp [named]
    rw [DistinctKeys, same]
    exact distinct.keys
  each := by
    intro entry member
    obtain ⟨old, present, rfl⟩ := List.mem_map.mp member
    by_cases named : old.1 = key
    · simpa [named] using added
    · simpa [named] using distinct.each old present

theorem DraftTable.Distinct.removeEntry (distinct : DraftTable.Distinct entries) :
    DraftTable.Distinct (removeEntry entries key) where
  keys := distinct.keys.sublist (List.filter_sublist.map Prod.fst)
  each entry member := distinct.each entry (List.mem_of_mem_filter member)

/-! ## Changes below a table -/

theorem DraftTable.Distinct.descend {made origin : Origin}
    {change : Origin → DraftTable → Option DraftTable}
    (keeps : ∀ origin entries changed, DraftTable.Distinct entries →
      change origin entries = some changed → DraftTable.Distinct changed)
    {path : List String} (distinct : DraftTable.Distinct entries)
    (done : Toml.descend made change path origin entries = some changed) :
    DraftTable.Distinct changed := by
  induction path generalizing origin entries changed with
  | nil => exact keeps origin entries changed distinct done
  | cons key path ih =>
      rw [Toml.descend] at done
      cases found : entries.lookup key with
      | none =>
          simp only [found] at done
          obtain ⟨child, reached, rfl⟩ := Option.map_eq_some_iff.mp done
          exact distinct.append ((ih distinct_nil reached).toDraft made) found
      | some old =>
          have before := distinct.of_lookup found
          cases old with
          | value item => simp [found] at done
          | table origin child =>
              simp only [found, Option.ite_none_left_eq_some] at done
              obtain ⟨after, reached, rfl⟩ := Option.map_eq_some_iff.mp done.2
              exact distinct.replaceEntry ((ih before.of_table reached).toDraft origin)
          | tables elements =>
              cases last : elements.getLast? with
              | none => simp [found, last] at done
              | some element =>
                  simp only [found, last] at done
                  obtain ⟨after, reached, rfl⟩ := Option.map_eq_some_iff.mp done
                  have elementDistinct := before.of_element (List.mem_of_getLast? last)
                  refine distinct.replaceEntry (draft_tables ?_)
                  intro other member
                  rcases List.mem_append.mp member with earlier | replaced
                  · exact before.of_element (List.dropLast_subset _ earlier)
                  · rw [List.mem_singleton.mp replaced]
                    exact ih elementDistinct reached

theorem DraftTable.Distinct.addValue {origin : Origin} {path : List String} {item : Item}
    (distinct : DraftTable.Distinct entries) (added : item.Distinct)
    (done : Toml.addValue origin path key item entries = some changed) :
    DraftTable.Distinct changed := by
  refine distinct.descend ?_ done
  intro reached table result tableDistinct result_eq
  simp only [Option.ite_none_left_eq_some] at result_eq
  exact tableDistinct.addEntry (.value added) result_eq.2

/-! ## Finished tables -/

theorem keys_finishEntries (entries : DraftTable) :
    (finishEntries entries).map Prod.fst = entries.map Prod.fst := by
  induction entries with
  | nil => simp [finishEntries]
  | cons entry entries ih => simp [finishEntries, ih]

theorem mem_finishEntries {entry : String × Item} (member : entry ∈ finishEntries entries) :
    ∃ draft, (entry.1, draft) ∈ entries ∧ entry.2 = draft.item := by
  induction entries with
  | nil => simp [finishEntries] at member
  | cons first entries ih =>
      rw [finishEntries, List.mem_cons] at member
      rcases member with rfl | later
      · exact ⟨first.2, List.mem_cons_self, rfl⟩
      · obtain ⟨draft, present, same⟩ := ih later
        exact ⟨draft, List.mem_cons_of_mem first present, same⟩

theorem mem_finishTables {elements : List DraftTable} {item : Item}
    (member : item ∈ finishTables elements) :
    ∃ element ∈ elements, item = .table (finishEntries element) := by
  induction elements with
  | nil => simp [finishTables] at member
  | cons first elements ih =>
      rw [finishTables, List.mem_cons] at member
      rcases member with rfl | later
      · exact ⟨first, List.mem_cons_self, rfl⟩
      · obtain ⟨element, present, same⟩ := ih later
        exact ⟨element, List.mem_cons_of_mem first present, same⟩

theorem distinct_finishEntries (keys : DistinctKeys entries)
    (each : ∀ entry ∈ entries, entry.2.item.Distinct) :
    Item.Distinct (.table (finishEntries entries)) := by
  refine .table ?_ ?_
  · rw [DistinctKeys, keys_finishEntries]
    exact keys
  · intro entry member
    obtain ⟨draft, present, same⟩ := mem_finishEntries member
    exact same ▸ each (entry.1, draft) present

theorem Draft.Distinct.item (distinct : draft.Distinct) : draft.item.Distinct := by
  induction distinct with
  | value distinct => exact distinct
  | table keys _ ih => exact distinct_finishEntries keys ih
  | tables keys _ ih =>
      refine .array ?_
      intro item member
      obtain ⟨element, present, rfl⟩ := mem_finishTables member
      exact distinct_finishEntries (keys element present) (ih element present)

theorem DraftTable.Distinct.finish (distinct : DraftTable.Distinct entries) :
    Item.Distinct (.table (finishEntries entries)) :=
  distinct_finishEntries distinct.keys fun entry member => (distinct.each entry member).item

end MemberDispatch.Toml
