import MemberDispatch.Proofs.Toml.Draft
import MemberDispatch.Toml.Document

/-!
# Keys of a document that was read

Every value that is read has distinct keys in all its tables, since inline
tables are put together like the tables of headers.  A line adds to the table
that is being filled, a header puts that table away and opens another, and no
step makes a key occur twice.
-/

set_option autoImplicit false

namespace MemberDispatch.Toml

/-- Whatever the reader reads has distinct keys. -/
def ReadsDistinct (reader : Reader Item) : Prop :=
  ∀ text item rest, reader text = some (item, rest) → item.Distinct

variable {text rest : List Char} {item : Item}

/-! ## Values without tables -/

theorem distinct_bounded? {value : Int} (read : bounded? value = some item) : item.Distinct := by
  rw [bounded?, Option.ite_none_right_eq_some] at read
  obtain ⟨-, ⟨⟩⟩ := read
  exact .integer value

theorem distinct_based? {base : Nat} (read : based? base text = some (item, rest)) :
    item.Distinct := by
  obtain ⟨⟨digits, after⟩, -, read⟩ := Option.bind_eq_some_iff.mp read
  obtain ⟨number, inRange, ⟨⟩⟩ := Option.bind_eq_some_iff.mp read
  exact distinct_bounded? inRange

theorem distinct_infinityOrNaN? {negative : Bool}
    (read : infinityOrNaN? negative text = some (item, rest)) : item.Distinct := by
  rw [infinityOrNaN?] at read
  split at read
  · cases read
    exact .float _
  · cases read
    exact .float _
  · cases read

theorem distinct_decimal? {negative : Bool} (read : decimal? negative text = some (item, rest)) :
    item.Distinct := by
  obtain ⟨⟨whole, after⟩, -, read⟩ := Option.bind_eq_some_iff.mp read
  dsimp only at read
  split at read
  · obtain ⟨⟨decimals, after⟩, -, read⟩ := Option.bind_eq_some_iff.mp read
    obtain ⟨⟨power, after⟩, -, read⟩ := Option.bind_eq_some_iff.mp read
    dsimp only at read
    split at read
    · cases read
    · cases read
      exact .float _
  · obtain ⟨number, inRange, ⟨⟩⟩ := Option.bind_eq_some_iff.mp read
    exact distinct_bounded? inRange

theorem readsDistinct_number? : ReadsDistinct number? := by
  intro text item rest read
  rw [number?.eq_def] at read
  split at read
  · exact distinct_based? read
  · exact distinct_based? read
  · exact distinct_based? read
  · dsimp only at read
    split at read
    · cases read
      exact distinct_infinityOrNaN? (by assumption)
    · exact distinct_decimal? read

theorem distinct_boolean? (read : boolean? text = some (item, rest)) : item.Distinct := by
  rw [boolean?] at read
  split at read
  · cases read
    exact .boolean true
  · cases read
    exact .boolean false
  · cases read

theorem readsDistinct_scalarValue? : ReadsDistinct scalarValue? := by
  intro text item rest read
  cases text with
  | nil => cases read
  | cons c text =>
      rw [scalarValue?] at read
      split at read
      · obtain ⟨_, -, ⟨⟩⟩ := Option.map_eq_some_iff.mp read
        exact .text _
      · split at read
        · exact distinct_boolean? read
        · split at read
          · cases read
            obtain ⟨_, -, ⟨⟩⟩ := Option.map_eq_some_iff.mp (by assumption)
            exact .moment _
          · exact readsDistinct_number? _ _ _ read

/-! ## Arrays and inline tables -/

variable {value : Reader Item}

theorem distinct_elements? (distinct : ReadsDistinct value) {bound : Nat} {items : List Item}
    (read : elements? value bound text = some (items, rest)) : ∀ item ∈ items, item.Distinct := by
  induction bound generalizing text items rest with
  | zero => cases read
  | succ bound ih =>
      rw [elements?] at read
      split at read
      · cases read
        simp
      · obtain ⟨⟨first, after⟩, here, read⟩ := Option.bind_eq_some_iff.mp read
        have firstDistinct := distinct _ _ _ here
        dsimp only at read
        split at read
        · cases read
          simpa using firstDistinct
        · obtain ⟨⟨others, after⟩, further, ⟨⟩⟩ := Option.bind_eq_some_iff.mp read
          exact List.forall_mem_cons.mpr ⟨firstDistinct, ih further⟩
        · cases read

theorem distinct_keyValue? (distinct : ReadsDistinct value) {key : KeyPath}
    (read : keyValue? value text = some ((key, item), rest)) : item.Distinct := by
  obtain ⟨⟨_, after⟩, -, read⟩ := Option.bind_eq_some_iff.mp read
  obtain ⟨after, -, read⟩ := Option.bind_eq_some_iff.mp read
  obtain ⟨⟨_, after⟩, here, ⟨⟩⟩ := Option.bind_eq_some_iff.mp read
  exact distinct _ _ _ here

theorem distinct_inlineEntries? (distinct : ReadsDistinct value) {bound : Nat}
    {entries : List (KeyPath × Item)}
    (read : inlineEntries? value bound text = some (entries, rest)) :
    ∀ entry ∈ entries, entry.2.Distinct := by
  induction bound generalizing text entries rest with
  | zero => cases read
  | succ bound ih =>
      obtain ⟨⟨first, after⟩, here, read⟩ := Option.bind_eq_some_iff.mp read
      have firstDistinct : first.2.Distinct := distinct_keyValue? distinct here
      dsimp only at read
      split at read
      · cases read
        simpa using firstDistinct
      · obtain ⟨⟨others, after⟩, further, ⟨⟩⟩ := Option.bind_eq_some_iff.mp read
        exact List.forall_mem_cons.mpr ⟨firstDistinct, ih further⟩
      · cases read

theorem distinct_addValues {entries : List (KeyPath × Item)}
    (each : ∀ entry ∈ entries, entry.2.Distinct) {before after : DraftTable}
    (distinct : DraftTable.Distinct before)
    (done : entries.foldlM
      (fun table entry => addValue .header entry.1.path entry.1.last entry.2 table) before =
        some after) : DraftTable.Distinct after := by
  induction entries generalizing before with
  | nil =>
      cases done
      exact distinct
  | cons entry entries ih =>
      rw [List.foldlM_cons] at done
      obtain ⟨next, added, done⟩ := Option.bind_eq_some_iff.mp done
      obtain ⟨entryDistinct, each⟩ := List.forall_mem_cons.mp each
      exact ih each (distinct.addValue entryDistinct added) done

theorem readsDistinct_value? (depth : Nat) : ReadsDistinct (value? depth) := by
  induction depth with
  | zero =>
      intro text item rest read
      rw [value?.eq_def] at read
      split at read
      · cases read
      · cases read
      · contradiction
      · contradiction
      · exact readsDistinct_scalarValue? _ _ _ read
  | succ depth ih =>
      intro text item rest read
      rw [value?.eq_def] at read
      split at read
      · contradiction
      · contradiction
      · rename_i same
        cases same
        obtain ⟨⟨items, after⟩, inside, ⟨⟩⟩ := Option.map_eq_some_iff.mp read
        exact .array (distinct_elements? ih inside)
      · rename_i same
        cases same
        split at read
        · cases read
          exact distinct_nil.finish
        · obtain ⟨⟨entries, after⟩, inside, read⟩ := Option.bind_eq_some_iff.mp read
          obtain ⟨table, made, ⟨⟩⟩ := Option.bind_eq_some_iff.mp read
          obtain ⟨drafts, added, rfl⟩ := Option.map_eq_some_iff.mp made
          exact (distinct_addValues (distinct_inlineEntries? ih inside) distinct_nil added).finish
      · exact readsDistinct_scalarValue? _ _ _ read

/-! ## Lines -/

namespace Reading

variable {reading next : Reading} {entries closed child : DraftTable} {path : List String}
  {key : String}

structure Distinct (reading : Reading) : Prop where
  finished : DraftTable.Distinct reading.finished
  present : DraftTable.Distinct reading.present

theorem distinct_addElement {element changed : DraftTable} (distinct : DraftTable.Distinct entries)
    (added : DraftTable.Distinct element)
    (done : addElement key element entries = some changed) : DraftTable.Distinct changed := by
  rw [addElement] at done
  split at done
  · rename_i elements found
    cases done
    refine distinct.replaceEntry (draft_tables ?_)
    intro other member
    rcases List.mem_append.mp member with earlier | new
    · exact (distinct.of_lookup found).of_element earlier
    · exact List.mem_singleton.mp new ▸ added
  · cases done

theorem Distinct.close (distinct : reading.Distinct) (done : reading.close = some closed) :
    DraftTable.Distinct closed := by
  rw [Reading.close] at done
  split at done
  · cases done
    exact distinct.present
  · refine distinct.finished.descend ?_ done
    intro _ entries changed before added
    exact before.addEntry (distinct.present.toDraft .header) added
  · refine distinct.finished.descend ?_ done
    intro _ entries changed before added
    exact distinct_addElement before distinct.present added

theorem distinct_tableAt? (distinct : DraftTable.Distinct entries)
    (found : tableAt? path entries = some child) : DraftTable.Distinct child := by
  induction path generalizing entries with
  | nil =>
      cases found
      exact distinct
  | cons key path ih =>
      rw [tableAt?] at found
      split at found
      · rename_i below
        exact ih (distinct.of_lookup below).of_table found
      · rename_i below
        obtain ⟨element, last, found⟩ := Option.bind_eq_some_iff.mp found
        exact ih ((distinct.of_lookup below).of_element (List.mem_of_getLast? last)) found
      · cases found

theorem distinct_reopened? (distinct : DraftTable.Distinct entries)
    (found : reopened? key entries = some child) : DraftTable.Distinct child := by
  rw [reopened?] at found
  split at found
  · cases found
    exact distinct_nil
  · rename_i below
    cases found
    exact (distinct.of_lookup below).of_table
  · cases found

theorem Distinct.openTable (distinct : reading.Distinct)
    (done : reading.openTable path key = some next) : next.Distinct := by
  obtain ⟨closed, put, done⟩ := Option.bind_eq_some_iff.mp done
  obtain ⟨present, reopened, done⟩ := Option.bind_eq_some_iff.mp done
  obtain ⟨finished, removed, ⟨⟩⟩ := Option.bind_eq_some_iff.mp done
  have before := distinct.close put
  refine ⟨before.descend ?_ removed, distinct_reopened? ?_ reopened⟩
  · rintro _ entries changed distinct ⟨⟩
    exact distinct.removeEntry
  · cases found : tableAt? path closed with
    | none => exact distinct_nil
    | some table => exact distinct_tableAt? before found

theorem distinct_ensureArray {changed : DraftTable} (distinct : DraftTable.Distinct entries)
    (done : ensureArray key entries = some changed) : DraftTable.Distinct changed := by
  rw [ensureArray] at done
  split at done
  · rename_i missing
    cases done
    exact distinct.append (draft_tables fun _ member => absurd member List.not_mem_nil) missing
  · cases done
    exact distinct
  · cases done

theorem Distinct.openElement (distinct : reading.Distinct)
    (done : reading.openElement path key = some next) : next.Distinct := by
  obtain ⟨closed, put, done⟩ := Option.bind_eq_some_iff.mp done
  obtain ⟨finished, ensured, ⟨⟩⟩ := Option.bind_eq_some_iff.mp done
  refine ⟨(distinct.close put).descend ?_ ensured, distinct_nil⟩
  intro _ entries changed
  exact distinct_ensureArray

theorem Distinct.add {name : KeyPath} (distinct : reading.Distinct) (added : item.Distinct)
    (done : reading.add name item = some next) : next.Distinct := by
  obtain ⟨present, put, rfl⟩ := Option.map_eq_some_iff.mp done
  exact ⟨distinct.finished, distinct.present.addValue added put⟩

/-- One line leaves all keys distinct. -/
theorem Distinct.line? (distinct : reading.Distinct)
    (read : Toml.line? reading text = some (next, rest)) : next.Distinct := by
  rw [Toml.line?.eq_def] at read
  split at read
  · obtain ⟨⟨key, _⟩, -, read⟩ := Option.bind_eq_some_iff.mp read
    obtain ⟨_, -, read⟩ := Option.bind_eq_some_iff.mp read
    obtain ⟨_, opened, ⟨⟩⟩ := Option.bind_eq_some_iff.mp read
    exact distinct.openElement opened
  · obtain ⟨⟨key, _⟩, -, read⟩ := Option.bind_eq_some_iff.mp read
    obtain ⟨_, -, read⟩ := Option.bind_eq_some_iff.mp read
    obtain ⟨_, opened, ⟨⟩⟩ := Option.bind_eq_some_iff.mp read
    exact distinct.openTable opened
  · obtain ⟨⟨⟨key, item⟩, _⟩, here, read⟩ := Option.bind_eq_some_iff.mp read
    obtain ⟨_, added, ⟨⟩⟩ := Option.bind_eq_some_iff.mp read
    exact distinct.add (distinct_keyValue? (readsDistinct_value? _) here) added

theorem Distinct.readLines? {bound : Nat} (distinct : reading.Distinct)
    (read : Toml.readLines? bound reading text = some next) : next.Distinct := by
  induction bound generalizing reading text with
  | zero => cases read
  | succ bound ih =>
      rw [Toml.readLines?.eq_def] at read
      dsimp only at read
      split at read
      · cases read
        exact distinct
      · split at read
        · exact ih distinct read
        · obtain ⟨⟨_, _⟩, line, read⟩ := Option.bind_eq_some_iff.mp read
          obtain ⟨_, -, read⟩ := Option.bind_eq_some_iff.mp read
          exact ih (distinct.line? line) read

end Reading

/-- No key occurs twice in any table of a document that was read. -/
theorem Table.distinct_of_read {text : String} {document : Table}
    (read : Table.read? text = some document) : Item.Distinct (.table document) := by
  obtain ⟨reading, lines, read⟩ := Option.bind_eq_some_iff.mp read
  obtain ⟨entries, closed, ⟨⟩⟩ := Option.bind_eq_some_iff.mp read
  have start : Reading.start.Distinct := ⟨distinct_nil, distinct_nil⟩
  exact ((start.readLines? lines).close closed).finish

end MemberDispatch.Toml
