import Mathlib.Data.List.Nodup
import Mathlib.Data.List.Range
import MemberDispatch.Hierarchy.Walk
import MemberDispatch.Proofs.Store.Reachable

/-!
# Issued handles

Defining a class issues a handle for each member of the definition, and the
handles that were issued before stay around.  A store never issues the same
serial twice, so that a serial stands for one handle; and what a class declares
has been issued.
-/

set_option autoImplicit false

namespace MemberDispatch.Store

/-- The handles that were issued while a store came to be what it is. -/
inductive Issues : Store → List Member → Prop where
  | platform : Issues platform []
  | intern {store : Store} {issued : List Member} (history : Issues store issued)
      (name : String) : Issues (store.intern name).2 issued
  | define {store : Store} {issued : List Member} (history : Issues store issued)
      (id : ClassId) (definition : ClassDef) :
      Issues (store.define id definition) (issued ++ (store.define id definition).members id)

theorem Issues.add {store : Store} {issued : List Member} (history : store.Issues issued)
    (definition : ClassDef) :
    (store.add definition).2.Issues
      (issued ++ (store.add definition).2.members (store.intern definition.name).1) :=
  (history.intern definition.name).define (store.intern definition.name).1 definition

theorem Reachable.exists_issued {store : Store} (reached : store.Reachable) :
    ∃ issued, store.Issues issued := by
  induction reached with
  | platform => exact ⟨[], .platform⟩
  | intern _ name ih =>
      obtain ⟨issued, history⟩ := ih
      exact ⟨issued, history.intern name⟩
  | define _ id definition ih =>
      obtain ⟨issued, history⟩ := ih
      exact ⟨_, history.define id definition⟩
  | add _ definition ih =>
      obtain ⟨issued, history⟩ := ih
      exact ⟨_, history.add definition⟩

/-! ## Serials -/

theorem serial_enroll (id : ClassId) (owner : String) (serial : Nat) (members : List MemberDef) :
    (enroll id owner serial members).map Member.serial =
      List.range' serial members.length := by
  apply List.ext_getElem
  · simp [enroll]
  · intro position within _
    simp [enroll]

theorem members_define {store : Store} {id : ClassId} {previous : ClassInfo}
    (definition : ClassDef) (defined : store.class? id = some previous) :
    (store.define id definition).members id =
      enroll id definition.name store.nextSerial definition.members := by
  rw [members, class?_define definition defined, if_pos rfl]
  rfl

theorem nextSerial_intern (store : Store) (name : String) :
    (store.intern name).2.nextSerial = store.nextSerial := by
  rw [intern]
  split <;> rfl

theorem nextSerial_define {store : Store} {id : ClassId} {previous : ClassInfo}
    (definition : ClassDef) (defined : store.class? id = some previous) :
    (store.define id definition).nextSerial =
      store.nextSerial + definition.members.length := by
  rw [define, defined]

/-- The serials of a definition begin where the earlier ones end. -/
theorem serial_of_mem_members_define {store : Store} {id : ClassId} {definition : ClassDef}
    {member : Member} (declared : member ∈ (store.define id definition).members id)
    {previous : ClassInfo} (defined : store.class? id = some previous) :
    store.nextSerial ≤ member.serial ∧
      member.serial < (store.define id definition).nextSerial := by
  have listed := List.mem_map_of_mem (f := Member.serial) declared
  rwa [members_define definition defined, serial_enroll, List.mem_range'_1,
    ← nextSerial_define definition defined] at listed

/-- Every issued handle has a serial of its own, below the next one. -/
structure Numbers (store : Store) (issued : List Member) : Prop where
  below : ∀ member ∈ issued, member.serial < store.nextSerial
  distinct : (issued.map Member.serial).Nodup
  complete : ∀ id, ∀ member ∈ store.members id, member ∈ issued

theorem Numbers.intern {store : Store} {issued : List Member} (numbers : store.Numbers issued)
    (name : String) : (store.intern name).2.Numbers issued := by
  refine ⟨by rw [nextSerial_intern]; exact numbers.below, numbers.distinct, ?_⟩
  intro id member declared
  cases known : store.idOf? name with
  | some other =>
      rw [intern_of_known known] at declared
      exact numbers.complete id member declared
  | none =>
      rw [members, class?_intern_of_unknown known] at declared
      split at declared
      · simp [ClassInfo.placeholder] at declared
      · exact numbers.complete id member declared

theorem Numbers.define {store : Store} {issued : List Member} (numbers : store.Numbers issued)
    (id : ClassId) (definition : ClassDef) :
    (store.define id definition).Numbers
      (issued ++ (store.define id definition).members id) := by
  cases known : store.class? id with
  | none =>
      have empty : store.members id = [] := by simp [members, known]
      rwa [define_of_undefined definition known, empty, List.append_nil]
  | some previous =>
      refine ⟨?_, ?_, ?_⟩
      · intro member issues
        rcases List.mem_append.mp issues with earlier | later
        · have bounded := numbers.below member earlier
          rw [nextSerial_define definition known]
          omega
        · exact (serial_of_mem_members_define later known).2
      · rw [List.map_append, List.nodup_append']
        refine ⟨numbers.distinct, ?_, ?_⟩
        · rw [members_define definition known, serial_enroll]
          exact List.nodup_range'
        · intro serial earlier later
          obtain ⟨member, issues, rfl⟩ := List.mem_map.mp earlier
          obtain ⟨other, declared, same⟩ := List.mem_map.mp later
          have bounded := numbers.below member issues
          have started := (serial_of_mem_members_define declared known).1
          omega
      · intro other member declared
        rw [members, class?_define definition known] at declared
        split at declared
        · rename_i same
          subst same
          rw [members, class?_define definition known, if_pos rfl]
          exact List.mem_append_right issued declared
        · exact List.mem_append_left _ (numbers.complete other member declared)

theorem members_platform (id : ClassId) : platform.members id = [] := by
  have bare : ∀ info ∈ platform.classes.toList, info.members.isEmpty = true := by
    decide +kernel
  cases defined : platform.class? id with
  | none => simp [members, defined]
  | some info =>
      have empty := bare info (Array.mem_toList_iff.mpr (Array.mem_of_getElem? defined))
      simp [members, defined, List.isEmpty_iff.mp empty]

theorem Issues.numbers {store : Store} {issued : List Member} (history : store.Issues issued) :
    store.Numbers issued := by
  induction history with
  | platform => exact ⟨by simp, by simp, by simp [members_platform]⟩
  | intern _ name ih => exact ih.intern name
  | define _ id definition ih => exact ih.define id definition

/-- A serial stands for one handle. -/
theorem Issues.eq_of_serial {store : Store} {issued : List Member}
    (history : store.Issues issued) {member other : Member} (issues : member ∈ issued)
    (otherIssues : other ∈ issued) (same : member.serial = other.serial) : member = other :=
  List.inj_on_of_nodup_map history.numbers.distinct issues otherIssues same

end MemberDispatch.Store
