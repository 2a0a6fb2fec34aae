import MemberDispatch.Proofs.Store.Changes
import MemberDispatch.Proofs.Store.Issued
import MemberDispatch.RunState

/-!
# Coherent stores

The records, the map of names and the handles of a store stay in step, however
often classes are interned, defined, renamed onto names in use or defined under
numbers that the store does not have.  The map stays sound under renaming because
a class gives up its previous name before it takes the next one.  A change writes
one record at most, and the handles it issues are new.
-/

set_option autoImplicit false

namespace MemberDispatch

/-- Access checks have been relaxed for issued handles alone. -/
def RunState.RelaxesOnly (state : RunState) (issued : List Member) : Prop :=
  ∀ serial ∈ state.relaxed, ∃ member ∈ issued, member.serial = serial

namespace Store

structure Coherent (store : Store) : Prop where
  numbered : ∀ id info, store.class? id = some info → info.id = id
  /-- The names are a map. -/
  keyed : (store.names.map Prod.fst).Nodup
  named : ∀ name id, store.idOf? name = some id →
    ∃ info, store.class? id = some info ∧ info.name = name
  declared : store.DeclaresOwn

theorem Coherent.name_unique {store : Store} (coherent : store.Coherent) {first second : String}
    {id : ClassId} (found : store.idOf? first = some id) (again : store.idOf? second = some id) :
    first = second := by
  obtain ⟨info, defined, rfl⟩ := coherent.named first id found
  obtain ⟨other, definedAgain, rfl⟩ := coherent.named second id again
  rw [Option.some.inj (defined.symm.trans definedAgain)]

theorem class?_eq_some_of_lt_size {store : Store} {id : ClassId} (within : id.index < store.size) :
    ∃ info, store.class? id = some info :=
  ⟨_, Array.getElem?_eq_getElem within⟩

/-! ## Preservation -/

theorem Coherent.intern {store : Store} (coherent : store.Coherent) (name : String) :
    (store.intern name).2.Coherent := by
  cases known : store.idOf? name with
  | some id => rwa [intern_of_known known]
  | none =>
      refine ⟨?_, ?_, ?_, coherent.declared.intern name⟩
      · intro id info defined
        rw [class?_intern_of_unknown known] at defined
        split at defined
        · rename_i same
          cases Option.some.inj defined
          exact same.symm
        · exact coherent.numbered id info defined
      · simp only [Store.intern, known]
        exact nodup_keys_putName coherent.keyed name _
      · intro query id found
        rw [idOf?_intern, intern_of_unknown known] at found
        rw [class?_intern_of_unknown known]
        split at found
        · rename_i same
          cases Option.some.inj found
          exact ⟨_, if_pos rfl, same.symm⟩
        · obtain ⟨info, defined, nameEq⟩ := coherent.named query id found
          have before : id ≠ ⟨store.size⟩ := by
            rintro rfl
            exact absurd (index_lt_size_of_class? defined) (Nat.lt_irrefl store.size)
          exact ⟨info, by rw [if_neg before, defined], nameEq⟩

theorem Coherent.define {store : Store} (coherent : store.Coherent) (id : ClassId)
    (definition : ClassDef) : (store.define id definition).Coherent := by
  cases known : store.class? id with
  | none => rwa [define_of_undefined definition known]
  | some previous =>
      refine ⟨?_, ?_, ?_, coherent.declared.define id definition⟩
      · intro other info defined
        rw [class?_define definition known] at defined
        split at defined
        · rename_i same
          cases Option.some.inj defined
          exact same.symm
        · exact coherent.numbered other info defined
      · simp only [Store.define, known]
        apply nodup_keys_putName
        split
        · exact coherent.keyed
        · exact nodup_keys_eraseName coherent.keyed previous.name
      · intro query other found
        rw [idOf?_define definition known] at found
        split at found
        · rename_i same
          cases Option.some.inj found
          rw [class?_define definition known, if_pos rfl]
          exact ⟨_, rfl, same.symm⟩
        · split at found
          · cases found
          · rename_i _ differs
            obtain ⟨info, defined, nameEq⟩ := coherent.named query other found
            -- The class that is defined was found under its previous name alone.
            have elsewhere : other ≠ id := by
              rintro rfl
              cases Option.some.inj (known.symm.trans defined)
              exact differs nameEq.symm
            exact ⟨info, by rw [class?_define_of_ne definition elsewhere, defined], nameEq⟩

theorem Coherent.apply {store : Store} (coherent : store.Coherent) (change : Change) :
    (change.apply store).Coherent := by
  cases change with
  | intern name => exact coherent.intern name
  | define id definition => exact coherent.define id definition
  | add definition => exact (coherent.intern definition.name).define _ definition

theorem Coherent.applyAll {store : Store} (coherent : store.Coherent) (changes : List Change) :
    (Change.applyAll changes store).Coherent := by
  induction changes generalizing store with
  | nil => exact coherent
  | cons change rest ih => exact ih (coherent.apply change)

theorem Reachable.coherent {store : Store} (reached : store.Reachable) : store.Coherent := by
  refine reached.of_steps ?_ (fun _ name coherent => coherent.intern name)
    (fun _ id definition coherent => coherent.define id definition)
  exact
    { numbered := by simp [empty, class?]
      keyed := List.nodup_nil
      named := by simp [empty, idOf?]
      declared := by simp [DeclaresOwn, empty, class?] }

/-- Interning leads to a class that has the name. -/
theorem Coherent.exists_interned {store : Store} (coherent : store.Coherent) (name : String) :
    ∃ info, (store.intern name).2.class? (store.intern name).1 = some info ∧ info.name = name := by
  have interned := idOf?_intern store name name
  rw [if_pos rfl] at interned
  exact (coherent.intern name).named name _ interned

/-! ## The wrappers -/

theorem idOf?_platform_wrapper (kind : Primitive) :
    platform.idOf? kind.wrapperName = some kind.wrapper := by
  have listed : ∀ kind ∈ Primitive.all, platform.idOf? kind.wrapperName = some kind.wrapper := by
    decide +kernel
  exact listed kind kind.mem_all

theorem Reachable.size_platform_le {store : Store} (reached : store.Reachable) :
    Store.platform.size ≤ store.size := by
  induction reached with
  | platform => exact Nat.le_refl Store.platform.size
  | intern _ name ih => exact ih.trans ((Change.intern name).size_le_apply _)
  | define _ id definition ih => exact ih.trans ((Change.define id definition).size_le_apply _)
  | add _ definition ih => exact ih.trans ((Change.add definition).size_le_apply _)

/-- Whatever is redefined, the wrappers are classes of the store. -/
theorem Reachable.class?_wrapper {store : Store} (reached : store.Reachable) (kind : Primitive) :
    ∃ info, store.class? kind.wrapper = some info := by
  obtain ⟨_, onPlatform, _⟩ :=
    Reachable.platform.coherent.named kind.wrapperName kind.wrapper (idOf?_platform_wrapper kind)
  exact class?_eq_some_of_lt_size
    (Nat.lt_of_lt_of_le (index_lt_size_of_class? onPlatform) reached.size_platform_le)

/-! ## Handles -/

theorem Change.mem_members_apply {store : Store} {change : Change} {id : ClassId} {member : Member}
    (declared : member ∈ (change.apply store).members id) :
    member ∈ store.members id ∨ store.nextSerial ≤ member.serial := by
  have ofIntern (name : String) (declared : member ∈ (store.intern name).2.members id) :
      member ∈ store.members id := by
    cases known : store.idOf? name with
    | some other => rwa [intern_of_known known] at declared
    | none =>
        rw [members, class?_intern_of_unknown known] at declared
        split at declared
        · simp [ClassInfo.placeholder] at declared
        · exact declared
  have ofDefine (store : Store) (target : ClassId) (definition : ClassDef)
      (declared : member ∈ (store.define target definition).members id) :
      member ∈ store.members id ∨ store.nextSerial ≤ member.serial := by
    by_cases same : id = target
    · subst same
      cases known : store.class? id with
      | none => exact .inl (by rwa [define_of_undefined definition known] at declared)
      | some previous => exact .inr (serial_of_mem_members_define declared known).1
    · rw [members, class?_define_of_ne definition same] at declared
      exact .inl declared
  cases change with
  | intern name => exact .inl (ofIntern name declared)
  | define target definition => exact ofDefine store target definition declared
  | add definition =>
      have eitherWay := ofDefine (store.intern definition.name).2
        (store.intern definition.name).1 definition declared
      rw [nextSerial_intern] at eitherWay
      exact eitherWay.imp_left (ofIntern definition.name)

/-- A handle that is not issued yet starts accessible exactly if it is public. -/
theorem Numbers.accessible_of_fresh {store : Store} {issued : List Member}
    (numbers : store.Numbers issued) {state : RunState} (relaxes : state.RelaxesOnly issued)
    {member : Member} (fresh : store.nextSerial ≤ member.serial) :
    state.accessible member = member.isPublic := by
  have closed : state.relaxed.contains member.serial = false := by
    rw [List.contains_eq_mem, decide_eq_false_iff_not]
    intro listed
    obtain ⟨other, issues, same⟩ := relaxes member.serial listed
    have below := numbers.below other issues
    omega
  rw [RunState.accessible, closed, Bool.or_false]

/-! ## Changes -/

namespace Change

/-- A change for which there is nothing to do: the name is known, or the number is
not. -/
def Idle (store : Store) : Change → Prop
  | intern name => store.idOf? name ≠ none
  | define id _ => store.class? id = none
  | add _ => False

theorem apply_of_idle {store : Store} {change : Change} (idle : change.Idle store) :
    change.apply store = store := by
  cases change with
  | intern name =>
      obtain ⟨id, known⟩ := Option.ne_none_iff_exists'.mp idle
      exact intern_of_known known
  | define id definition => exact define_of_undefined definition idle
  | add definition => exact idle.elim

def definition? : Change → Option ClassDef
  | intern _ => none
  | define _ definition => some definition
  | add definition => some definition

/-- What a change does to a store, and what it leaves alone. -/
structure Framed (store : Store) (change : Change) : Prop where
  grows : change.Registers store → (change.apply store).size = store.size + 1
  keepsSize : ¬ change.Registers store → (change.apply store).size = store.size
  idle : change.Idle store → change.apply store = store
  /-- The records of all other classes stay, with the handles they hold. -/
  elsewhere : ∀ other, other ≠ change.target store →
    (change.apply store).class? other = store.class? other
  registered : ∀ name, change.interned? = some name →
    (change.apply store).idOf? name = some (change.target store)
  written : ¬ change.Idle store → ∀ definition, change.definition? = some definition →
    (change.apply store).class? (change.target store) =
      some (record (change.target store) definition store.nextSerial)
  /-- What a class declares was declared before, or it has just been issued and is
  accessible exactly if it is public. -/
  starts : ∀ (issued : List Member) (state : RunState), store.Issues issued → state.RelaxesOnly issued →
    ∀ id, ∀ member ∈ (change.apply store).members id,
      member ∈ store.members id ∨ state.accessible member = member.isPublic

theorem idOf?_apply_of_interned {store : Store} (coherent : store.Coherent) {change : Change}
    {name : String} (interns : change.interned? = some name) :
    (change.apply store).idOf? name = some (change.target store) := by
  cases change with
  | intern given =>
      cases interns
      rw [apply, target, idOf?_intern, if_pos rfl]
  | define id definition => cases interns
  | add definition =>
      cases interns
      obtain ⟨info, placed, _⟩ := coherent.exists_interned definition.name
      rw [apply, target, Store.add, idOf?_define definition placed, if_pos rfl]

theorem class?_apply_target {store : Store} (coherent : store.Coherent) {change : Change}
    (busy : ¬ change.Idle store) {definition : ClassDef}
    (defines : change.definition? = some definition) :
    (change.apply store).class? (change.target store) =
      some (record (change.target store) definition store.nextSerial) := by
  cases change with
  | intern name => cases defines
  | define id given =>
      cases defines
      obtain ⟨previous, known⟩ := Option.ne_none_iff_exists'.mp busy
      rw [apply, target, class?_define definition known, if_pos rfl]
  | add given =>
      cases defines
      obtain ⟨info, placed, _⟩ := coherent.exists_interned definition.name
      rw [apply, target, Store.add, class?_define definition placed, if_pos rfl,
        nextSerial_intern]

theorem framed {store : Store} (coherent : store.Coherent) (change : Change) :
    change.Framed store where
  grows := size_apply_of_registers
  keepsSize := size_apply_of_not_registers
  idle := apply_of_idle
  elsewhere _ := class?_apply_of_ne
  registered _ := idOf?_apply_of_interned coherent
  written busy _ := class?_apply_target coherent busy
  starts := by
    intro issued state history relaxes id member declared
    exact (mem_members_apply declared).imp_right (history.numbers.accessible_of_fresh relaxes)

end Change

/-- In every store that grows out of the platform the records carry their numbers,
a name leads to the one class that carries it, members name the class that declares
them, and the wrappers are eight classes, each of which unboxes to its own kind; and
each change to it keeps to its frame. -/
theorem Reachable.coherent_framed {store : Store} (reached : store.Reachable) :
    store.Coherent ∧
      (∀ first second id, store.idOf? first = some id → store.idOf? second = some id →
        first = second) ∧
      (∀ kind : Primitive, Store.platform.idOf? kind.wrapperName = some kind.wrapper ∧
        (∃ info, store.class? kind.wrapper = some info) ∧
        (∀ other : Primitive, kind.wrapper = other.wrapper ↔ kind = other) ∧
        ∀ id : ClassId, id.unboxed? = some kind ↔ id = kind.wrapper) ∧
      ∀ change : Change, change.Framed store := by
  refine ⟨reached.coherent, ?_, ?_, fun change => change.framed reached.coherent⟩
  · intro first second id found again
    exact reached.coherent.name_unique found again
  · intro kind
    exact ⟨idOf?_platform_wrapper kind, reached.class?_wrapper kind,
      fun _ => Primitive.wrapper_inj, fun _ => ClassId.unboxed?_eq_some_iff⟩

end Store

/-! ## A harbour

A ferry has taken over the name of the barge beside it. -/

namespace Harbour

open Store

def ferry : ClassId := ⟨26⟩
def barge : ClassId := ⟨27⟩

def duty (name : String) (visibility : Visibility) : MemberDef :=
  { name, params := [], returns := .void, isStatic := false, visibility,
    body := some (.tally name) }

def vessel (name : String) : ClassDef :=
  { platformClass name (some .object) [] with
    members := [duty "sail" .publicAccess, duty "moor" .packageAccess] }

def store : Store :=
  (platform.addAll [vessel "Ferry", vessel "Barge"]).define ferry (vessel "Barge")

theorem store_reachable : store.Reachable :=
  (Reachable.platform.addAll [vessel "Ferry", vessel "Barge"]).define ferry (vessel "Barge")

/-- The barge gets a name of its own again. -/
def rename : Change := .define barge (vessel "Hulk")

/-- Whoever used the ferry has opened all its handles. -/
def aboard : RunState :=
  { RunState.initial with relaxed := (store.members ferry).map Member.serial }

/-- The ferry has its new name and no other, and the barge's next definition leaves
it alone and brings handles that nobody has opened. -/
theorem rename_framed :
    store.Reachable ∧ store.idOf? "Barge" = some ferry ∧
      (∀ name, store.idOf? name = some ferry → name = "Barge") ∧
      (rename.apply store).size = store.size ∧
      (rename.apply store).class? ferry = store.class? ferry ∧
      ∃ issued, store.Issues issued ∧ aboard.RelaxesOnly issued ∧
        ∀ member ∈ (rename.apply store).members barge,
          member ∈ store.members barge ∨ aboard.accessible member = member.isPublic := by
  have computed : store.idOf? "Barge" = some ferry := by decide +kernel
  have distinct : ferry ≠ barge := by decide
  obtain ⟨_, unique, _, framed⟩ := Reachable.coherent_framed store_reachable
  obtain ⟨issued, history⟩ := store_reachable.exists_issued
  have relaxes : aboard.RelaxesOnly issued := by
    intro serial listed
    simp only [aboard] at listed
    obtain ⟨member, declared, serialEq⟩ := List.mem_map.mp listed
    exact ⟨member, history.numbers.complete ferry member declared, serialEq⟩
  refine ⟨store_reachable, computed, ?_, ?_, ?_, issued, history, relaxes, ?_⟩
  · intro name found
    exact unique name "Barge" ferry found computed
  · apply (framed rename).keepsSize
    rintro ⟨name, interns, _⟩
    cases interns
  · exact (framed rename).elsewhere ferry distinct
  · exact (framed rename).starts issued aboard history relaxes barge

end Harbour

end MemberDispatch
