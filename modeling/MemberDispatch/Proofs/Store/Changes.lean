import MemberDispatch.Proofs.Hierarchy.Ancestry
import MemberDispatch.Proofs.Store.Reachable

/-!
# Changes to a store

A store changes by interning a name, by defining a class, or by both at once.
Each change is described by what can be asked of the store afterwards: how many
classes there are, what the record of a class is, and which class carries a name.
-/

set_option autoImplicit false

namespace MemberDispatch.Store

/-! ## The map of names -/

theorem lookup_eraseName (names : List (String × ClassId)) (name query : String) :
    (eraseName names name).lookup query = if query = name then none else names.lookup query := by
  induction names with
  | nil => simp [eraseName]
  | cons entry rest ih =>
      obtain ⟨key, id⟩ := entry
      rw [eraseName] at ih ⊢
      by_cases erased : key = name
      · subst erased
        rw [List.filter_cons_of_neg (by simp), ih]
        split
        · rfl
        · rename_i differs
          rw [List.lookup_cons, beq_false_of_ne differs]
      · rw [List.filter_cons_of_pos (by simpa using erased), List.lookup_cons, List.lookup_cons, ih]
        by_cases found : query = key
        · subst found
          simp [erased]
        · simp [beq_false_of_ne found]

theorem lookup_putName (names : List (String × ClassId)) (name : String) (id : ClassId)
    (query : String) :
    (putName names name id).lookup query =
      if query = name then some id else names.lookup query := by
  rw [putName, List.lookup_cons, lookup_eraseName]
  by_cases found : query = name
  · simp [found]
  · simp [found, beq_false_of_ne found]

theorem nodup_keys_eraseName {names : List (String × ClassId)}
    (distinct : (names.map Prod.fst).Nodup) (name : String) :
    ((eraseName names name).map Prod.fst).Nodup :=
  distinct.sublist (List.filter_sublist.map Prod.fst)

theorem nodup_keys_putName {names : List (String × ClassId)}
    (distinct : (names.map Prod.fst).Nodup) (name : String) (id : ClassId) :
    ((putName names name id).map Prod.fst).Nodup := by
  rw [putName, List.map_cons, List.nodup_cons]
  refine ⟨?_, nodup_keys_eraseName distinct name⟩
  simp [eraseName]

/-! ## Interning -/

theorem intern_of_unknown {store : Store} {name : String} (unknown : store.idOf? name = none) :
    (store.intern name).1 = ⟨store.size⟩ := by
  rw [intern, unknown]

theorem size_intern (store : Store) (name : String) :
    (store.intern name).2.size =
      if store.idOf? name = none then store.size + 1 else store.size := by
  cases known : store.idOf? name with
  | some id => rw [intern_of_known known, if_neg (by simp)]
  | none => simp [intern, known, size]

theorem idOf?_intern (store : Store) (name query : String) :
    (store.intern name).2.idOf? query =
      if query = name then some (store.intern name).1 else store.idOf? query := by
  cases known : store.idOf? name with
  | some id =>
      rw [intern_of_known known, intern, known]
      split
      · rename_i same
        rw [same, known]
      · rfl
  | none =>
      rw [intern_of_unknown known]
      simp only [intern, known]
      exact lookup_putName store.names name ⟨store.size⟩ query

theorem idOf?_intern_of_known {store : Store} {name : String} {id : ClassId}
    (known : store.idOf? name = some id) (other : String) :
    (store.intern other).2.idOf? name = some id := by
  rw [idOf?_intern]
  split
  · rename_i same
    rw [intern, ← same, known]
  · exact known

theorem class?_intern_of_ne {store : Store} {name : String} {other : ClassId}
    (elsewhere : other ≠ (store.intern name).1) :
    (store.intern name).2.class? other = store.class? other := by
  cases known : store.idOf? name with
  | some id => rw [intern_of_known known]
  | none =>
      rw [intern_of_unknown known] at elsewhere
      rw [class?_intern_of_unknown known, if_neg elsewhere]

/-! ## Defining -/

theorem size_define (store : Store) (id : ClassId) (definition : ClassDef) :
    (store.define id definition).size = store.size := by
  cases known : store.class? id with
  | none => rw [define_of_undefined definition known]
  | some previous => simp [define, known, size]

/-- A definition registers its name and gives up the one that the class had
before. -/
theorem idOf?_define {store : Store} {id : ClassId} {previous : ClassInfo}
    (definition : ClassDef) (defined : store.class? id = some previous) (query : String) :
    (store.define id definition).idOf? query =
      if query = definition.name then some id
      else if query = previous.name then none
      else store.idOf? query := by
  simp only [define, defined, idOf?]
  rw [lookup_putName]
  split
  · rfl
  · rename_i differs
    split
    · rename_i same
      have kept : query ≠ previous.name := fun old => differs (old.trans same)
      rw [if_neg kept]
    · rw [lookup_eraseName]

theorem class?_define_of_ne {store : Store} {id other : ClassId} (definition : ClassDef)
    (elsewhere : other ≠ id) :
    (store.define id definition).class? other = store.class? other := by
  cases known : store.class? id with
  | none => rw [define_of_undefined definition known]
  | some previous => rw [class?_define definition known, if_neg elsewhere]

/-! ## Changes -/

inductive Change where
  | intern (name : String)
  | define (id : ClassId) (definition : ClassDef)
  | add (definition : ClassDef)

namespace Change

def apply : Change → Store → Store
  | intern name, store => (store.intern name).2
  | define id definition, store => store.define id definition
  | add definition, store => (store.add definition).2

def applyAll (changes : List Change) (store : Store) : Store :=
  changes.foldl (fun store change => change.apply store) store

theorem applyAll_concat (changes : List Change) (change : Change) (store : Store) :
    applyAll (changes ++ [change]) store = change.apply (applyAll changes store) := by
  rw [applyAll, List.foldl_append]
  rfl

/-- The name that a change interns. -/
def interned? : Change → Option String
  | intern name => some name
  | define _ _ => none
  | add definition => some definition.name

/-- The only class that a change is about. -/
def target : Change → Store → ClassId
  | intern name, store => (store.intern name).1
  | define id _, _ => id
  | add definition, store => (store.add definition).1

/-- A change registers a name that no class carries. -/
def Registers (change : Change) (store : Store) : Prop :=
  ∃ name, change.interned? = some name ∧ store.idOf? name = none

variable {store : Store}

theorem size_apply_of_registers {change : Change} (registers : change.Registers store) :
    (change.apply store).size = store.size + 1 := by
  obtain ⟨name, interns, unknown⟩ := registers
  cases change with
  | intern given =>
      cases interns
      rw [apply, size_intern, if_pos unknown]
  | define id definition => cases interns
  | add definition =>
      cases interns
      rw [apply, Store.add, size_define, size_intern, if_pos unknown]

theorem size_apply_of_not_registers {change : Change} (registers : ¬ change.Registers store) :
    (change.apply store).size = store.size := by
  have known (name : String) (interns : change.interned? = some name) :
      store.idOf? name ≠ none := fun unknown => registers ⟨name, interns, unknown⟩
  cases change with
  | intern name => rw [apply, size_intern, if_neg (known name rfl)]
  | define id definition => exact size_define store id definition
  | add definition =>
      rw [apply, Store.add, size_define, size_intern, if_neg (known definition.name rfl)]

theorem size_le_apply (change : Change) (store : Store) : store.size ≤ (change.apply store).size := by
  by_cases registers : change.Registers store
  · rw [size_apply_of_registers registers]
    exact Nat.le_succ store.size
  · exact Nat.le_of_eq (size_apply_of_not_registers registers).symm

/-- All records but one are left as they are. -/
theorem class?_apply_of_ne {change : Change} {other : ClassId}
    (elsewhere : other ≠ change.target store) :
    (change.apply store).class? other = store.class? other := by
  cases change with
  | intern name => exact class?_intern_of_ne elsewhere
  | define id definition => exact class?_define_of_ne definition elsewhere
  | add definition =>
      exact (class?_define_of_ne definition elsewhere).trans (class?_intern_of_ne elsewhere)

end Change

/-! ## Classes under new names -/

/-- A name that is not taken is not taken by a class with another name either. -/
theorem idOf?_add_eq_none {store : Store} {definition : ClassDef} {name : String}
    (unknown : store.idOf? name = none) (differs : name ≠ definition.name) :
    (store.add definition).2.idOf? name = none := by
  have interned : (store.intern definition.name).2.idOf? name = none := by
    rw [idOf?_intern, if_neg differs, unknown]
  have added : (store.add definition).2 =
      (store.intern definition.name).2.define (store.intern definition.name).1 definition := rfl
  rw [added]
  cases known : (store.intern definition.name).2.class? (store.intern definition.name).1 with
  | none => rw [define_of_undefined definition known, interned]
  | some previous =>
      rw [idOf?_define definition known, if_neg differs, interned]
      split
      · rfl
      · rfl

theorem idOf?_addAll_eq_none {store : Store} {definitions : List ClassDef} {name : String}
    (unknown : store.idOf? name = none)
    (differs : ∀ definition ∈ definitions, name ≠ definition.name) :
    (store.addAll definitions).idOf? name = none := by
  induction definitions generalizing store with
  | nil => exact unknown
  | cons definition rest ih =>
      obtain ⟨first, others⟩ := List.forall_mem_cons.mp differs
      exact ih (idOf?_add_eq_none unknown first) others

theorem size_add_of_unknown {store : Store} {definition : ClassDef}
    (unknown : store.idOf? definition.name = none) :
    (store.add definition).2.size = store.size + 1 := by
  have registers : (Change.add definition).Registers store := ⟨definition.name, rfl, unknown⟩
  exact Change.size_apply_of_registers registers

/-! ## Rows of classes

Stores of any size grow by a row of classes under new names. -/

/-- The store once the first so many classes of a row are added. -/
def addRow (store : Store) (row : Nat → ClassDef) : Nat → Store
  | 0 => store
  | count + 1 => ((store.addRow row count).add (row count)).2

/-- No class of the row has a name of the store, or of another class of the row. -/
structure NewRow (store : Store) (row : Nat → ClassDef) : Prop where
  unknown : ∀ place, store.idOf? (row place).name = none
  distinct : ∀ place other, place ≠ other → (row place).name ≠ (row other).name

section Rows

variable {store : Store} {row : Nat → ClassDef} {count place : Nat}

theorem Reachable.addRow (reached : store.Reachable) (row : Nat → ClassDef) (count : Nat) :
    (store.addRow row count).Reachable := by
  induction count with
  | zero => exact reached
  | succ count ih => exact ih.add (row count)

theorem NewRow.idOf?_addRow (new : store.NewRow row) (ahead : count ≤ place) :
    (store.addRow row count).idOf? (row place).name = none := by
  induction count with
  | zero => exact new.unknown place
  | succ count ih => exact idOf?_add_eq_none (ih (by omega)) (new.distinct _ _ (by omega))

theorem NewRow.size_addRow (new : store.NewRow row) (count : Nat) :
    (store.addRow row count).size = store.size + count := by
  induction count with
  | zero => rfl
  | succ count ih =>
      rw [Store.addRow, size_add_of_unknown (new.idOf?_addRow (Nat.le_refl count)), ih,
        Nat.add_assoc]

theorem NewRow.class?_addRow_succ (new : store.NewRow row) (count : Nat) (id : ClassId) :
    (store.addRow row (count + 1)).class? id =
      if id = ⟨store.size + count⟩ then
        some (record ⟨store.size + count⟩ (row count) (store.addRow row count).nextSerial)
      else (store.addRow row count).class? id := by
  rw [Store.addRow, class?_add (new.idOf?_addRow (Nat.le_refl count)), new.size_addRow]

theorem NewRow.class?_addRow (new : store.NewRow row) (stands : place < count) :
    (store.addRow row count).class? ⟨store.size + place⟩ =
      some (record ⟨store.size + place⟩ (row place) (store.addRow row place).nextSerial) := by
  induction count with
  | zero => omega
  | succ count ih =>
      rw [new.class?_addRow_succ]
      by_cases last : place = count
      · rw [last, if_pos rfl]
      · rw [if_neg, ih (by omega)]
        simpa using last

/-- If every class comes after its supertypes, there is no cycle. -/
theorem NewRow.acyclic_addRow (new : store.NewRow row) (descending : store.Descending)
    (descends : ∀ place, ∀ sup ∈ (row place).superclass.toList ++ (row place).interfaces,
      sup.index < store.size + place) (count : Nat) : (store.addRow row count).Acyclic := by
  apply acyclic_of_descending
  induction count with
  | zero => exact descending.1
  | succ count ih =>
      intro sub _ sup above
      rw [supertypes, new.class?_addRow_succ] at above
      split at above
      · rename_i last
        subst last
        exact descends count sup above
      · exact ih sub (mem_ids_of_directSupertype above) sup above

end Rows

/-! ### Rows on the platform -/

theorem size_platform : platform.size = 26 := by
  decide +kernel

theorem descending_platform : platform.Descending := by
  decide +kernel

/-- A name of strokes: one more than the place. -/
def strokes (place : Nat) : String :=
  .ofList (List.replicate (place + 1) 'I')

theorem strokes_ne {place other : Nat} (differs : place ≠ other) :
    strokes place ≠ strokes other := by
  intro same
  have lengths := congrArg List.length (String.ofList_injective same)
  simp only [List.length_replicate] at lengths
  omega

/-- No class of the platform is named by strokes. -/
theorem newRow_of_strokes {row : Nat → ClassDef}
    (named : ∀ place, (row place).name = strokes place) : platform.NewRow row where
  unknown := by
    have dotted : ∀ definition ∈ platformClasses, definition.name.toList.contains '.' = true := by
      decide +kernel
    intro place
    apply idOf?_addAll_eq_none rfl
    intro definition member same
    have dot := dotted definition member
    rw [← same, named, strokes, String.toList_ofList, List.contains_iff_mem] at dot
    exact absurd (List.eq_of_mem_replicate dot) (by decide)
  distinct := by
    intro place other differs
    rw [named, named]
    exact strokes_ne differs

end MemberDispatch.Store
