import MemberDispatch.Scope
import MemberDispatch.Store.Platform

/-!
# Reachable stores

Every store grows out of the platform by interning names and by defining
classes.  Each operation writes at most one class record, so what holds of all
records is shown record by record.  On a reachable store the members that a
class declares name it as their declaring class, whatever was redefined.
-/

set_option autoImplicit false

namespace MemberDispatch.Store

inductive Reachable : Store → Prop where
  | platform : Reachable platform
  | intern {store : Store} (reached : Reachable store) (name : String) :
      Reachable (store.intern name).2
  | define {store : Store} (reached : Reachable store) (id : ClassId)
      (definition : ClassDef) : Reachable (store.define id definition)
  | add {store : Store} (reached : Reachable store) (definition : ClassDef) :
      Reachable (store.add definition).2

def addAll (store : Store) (definitions : List ClassDef) : Store :=
  definitions.foldl (fun store definition => (store.add definition).2) store

theorem Reachable.addAll {store : Store} (reached : store.Reachable)
    (definitions : List ClassDef) : (store.addAll definitions).Reachable := by
  induction definitions generalizing store with
  | nil => exact reached
  | cons definition rest ih => exact ih (reached.add definition)

/-! ## The records that an operation writes -/

theorem intern_of_known {store : Store} {name : String} {id : ClassId}
    (known : store.idOf? name = some id) : (store.intern name).2 = store := by
  rw [intern, known]

theorem class?_intern_of_unknown {store : Store} {name : String}
    (unknown : store.idOf? name = none) (other : ClassId) :
    (store.intern name).2.class? other =
      if other = ⟨store.size⟩ then some (.placeholder ⟨store.size⟩ name)
      else store.class? other := by
  obtain ⟨index⟩ := other
  simp only [intern, unknown, class?, Array.getElem?_push, size, ClassId.mk.injEq]

theorem define_of_undefined {store : Store} {id : ClassId} (definition : ClassDef)
    (undefined : store.class? id = none) : store.define id definition = store := by
  rw [define, undefined]

theorem class?_define {store : Store} {id : ClassId} {previous : ClassInfo}
    (definition : ClassDef) (defined : store.class? id = some previous) (other : ClassId) :
    (store.define id definition).class? other =
      if other = id then some (record id definition store.nextSerial)
      else store.class? other := by
  obtain ⟨bound, _⟩ := Array.getElem?_eq_some_iff.mp defined
  obtain ⟨index⟩ := id
  obtain ⟨position⟩ := other
  simp only [define, defined]
  simp only [class?, Array.getElem?_setIfInBounds, ClassId.mk.injEq, eq_comm (a := position)]
  by_cases same : index = position
  · subst same
    simp [bound]
  · simp [same]

/-- A class under a new name is recorded at the end. -/
theorem class?_add {store : Store} {definition : ClassDef}
    (unknown : store.idOf? definition.name = none) (other : ClassId) :
    (store.add definition).2.class? other =
      if other = ⟨store.size⟩ then some (record ⟨store.size⟩ definition store.nextSerial)
      else store.class? other := by
  have interned : (store.intern definition.name).1 = ⟨store.size⟩ := by
    rw [intern, unknown]
  have serial : (store.intern definition.name).2.nextSerial = store.nextSerial := by
    rw [intern, unknown]
  have placed := class?_intern_of_unknown unknown ⟨store.size⟩
  rw [if_pos rfl] at placed
  have added : (store.add definition).2 =
      (store.intern definition.name).2.define (store.intern definition.name).1 definition := rfl
  rw [added, interned, class?_define definition placed, serial,
    class?_intern_of_unknown unknown other]
  split <;> rfl

/-- A class under a new name leaves the classes before it as they are. -/
theorem class?_add_of_unknown {store : Store} {definition : ClassDef}
    (unknown : store.idOf? definition.name = none) {other : ClassId}
    (before : other.index < store.size) :
    (store.add definition).2.class? other = store.class? other := by
  rw [class?_add unknown, if_neg]
  rintro rfl
  exact absurd before (Nat.lt_irrefl store.size)

/-! ## Declaring classes -/

/-- The members of a class name it as the class that declares them. -/
def DeclaresOwn (store : Store) : Prop :=
  ∀ id info, store.class? id = some info →
    ∀ member ∈ info.members, member.declaringClass = id

theorem declaringClass_of_enroll {id : ClassId} {owner : String} {serial : Nat}
    {members : List MemberDef} {member : Member}
    (enrolled : member ∈ enroll id owner serial members) : member.declaringClass = id := by
  obtain ⟨slot, bound, rfl⟩ := List.mem_mapIdx.mp enrolled
  rfl

theorem DeclaresOwn.intern {store : Store} (own : store.DeclaresOwn) (name : String) :
    (store.intern name).2.DeclaresOwn := by
  cases known : store.idOf? name with
  | some id => rwa [intern_of_known known]
  | none =>
      intro id info defined member declared
      rw [class?_intern_of_unknown known] at defined
      split at defined
      · cases Option.some.inj defined
        simp [ClassInfo.placeholder] at declared
      · exact own id info defined member declared

theorem DeclaresOwn.define {store : Store} (own : store.DeclaresOwn) (id : ClassId)
    (definition : ClassDef) : (store.define id definition).DeclaresOwn := by
  cases known : store.class? id with
  | none => rwa [define_of_undefined definition known]
  | some previous =>
      intro other info defined member declared
      rw [class?_define definition known] at defined
      split at defined
      · rename_i same
        cases Option.some.inj defined
        rw [same]
        exact declaringClass_of_enroll declared
      · exact own other info defined member declared

/-- What holds of the empty store, and is preserved by interning and by defining,
holds of every reachable store: the platform itself is added class by class. -/
theorem Reachable.of_steps {invariant : Store → Prop} (empty : invariant .empty)
    (interned : ∀ store name, invariant store → invariant (store.intern name).2)
    (defined : ∀ store id definition, invariant store → invariant (store.define id definition))
    {store : Store} (reached : store.Reachable) : invariant store := by
  have added (store : Store) (definition : ClassDef) (holds : invariant store) :
      invariant (store.add definition).2 :=
    defined _ (store.intern definition.name).1 definition (interned store definition.name holds)
  have addedAll (definitions : List ClassDef) (store : Store) (holds : invariant store) :
      invariant (store.addAll definitions) := by
    induction definitions generalizing store with
    | nil => exact holds
    | cons definition rest ih => exact ih _ (added store definition holds)
  induction reached with
  | platform => exact addedAll platformClasses .empty empty
  | intern _ name ih => exact interned _ name ih
  | define _ id definition ih => exact defined _ id definition ih
  | add _ definition ih => exact added _ definition ih

theorem Reachable.declaresOwn {store : Store} (reached : store.Reachable) :
    store.DeclaresOwn := by
  refine reached.of_steps ?_ (fun _ name own => own.intern name)
    (fun _ id definition own => own.define id definition)
  intro id info defined
  simp [Store.empty, class?] at defined

theorem Reachable.declaringClass {store : Store} (reached : store.Reachable)
    {id : ClassId} {member : Member} (declared : member ∈ store.members id) :
    member.declaringClass = id := by
  cases defined : store.class? id with
  | none => simp [members, defined] at declared
  | some info =>
      apply reached.declaresOwn id info defined member
      simpa [members, defined] using declared

end MemberDispatch.Store

/-! ## A small hierarchy

Shapes that canvases draw: a disc is a circle and drawable, and a canvas has
overloads for both, neither more specific than the other.  A sketch adds the
overload for all shapes, a poster overrides the one for circles, and a stand-in
is generated for circles. -/

namespace MemberDispatch.Gallery

open Store

def shape : ClassId := ⟨26⟩
def circle : ClassId := ⟨27⟩
def drawable : ClassId := ⟨28⟩
def disc : ClassId := ⟨29⟩
def canvas : ClassId := ⟨30⟩
def sketch : ClassId := ⟨31⟩
def poster : ClassId := ⟨32⟩
def standIn : ClassId := ⟨33⟩

def draws (param : ClassId) (body : Body) : MemberDef :=
  { name := "draw", params := [.ofClass param], returns := .ofClass .object,
    isStatic := false, visibility := .publicAccess, body := some body }

def classes : List ClassDef :=
  [platformClass "Shape" (some .object) [],
    platformClass "Circle" (some shape) [],
    platformInterface "Drawable",
    platformClass "Disc" (some circle) [drawable],
    { platformClass "Canvas" (some .object) [] with
      members := [draws drawable (.argument 0), draws circle (.argument 0)] },
    { platformClass "Sketch" (some canvas) [] with members := [draws shape (.argument 0)] },
    { platformClass "Poster" (some sketch) [] with members := [draws circle .receiver] },
    { platformClass "Circle$StandIn" (some circle) [] with synthetic := true }]

def store : Store := platform.addAll classes

theorem store_reachable : store.Reachable := Reachable.platform.addAll classes

def scope : Scope := .ofStore store []

theorem scope_reachable : scope.store.Reachable := by
  simp only [scope, Scope.ofStore]
  exact store_reachable

end MemberDispatch.Gallery
