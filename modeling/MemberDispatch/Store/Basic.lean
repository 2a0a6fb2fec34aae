import MemberDispatch.Member

/-!
# Class stores

A store numbers classes in the order in which their names are first taken, and
keeps for each name the class that carries it now.  Defining a class replaces
its record and gives its members new serials; handles to the members it had
before stay valid but are declared on it no longer.
-/

set_option autoImplicit false

namespace MemberDispatch

structure Store where
  /-- The class numbered `i` stands at position `i`. -/
  classes : Array ClassInfo
  names : List (String × ClassId)
  nextSerial : Nat
deriving Inhabited

namespace Store

def empty : Store := ⟨#[], [], 0⟩

def size (store : Store) : Nat := store.classes.size

def class? (store : Store) (id : ClassId) : Option ClassInfo :=
  store.classes[id.index]?

def ids (store : Store) : List ClassId :=
  (List.range store.size).map ClassId.mk

/-- The class that carries a name now. -/
def idOf? (store : Store) (name : String) : Option ClassId :=
  store.names.lookup name

/-- The package whose classes may be named without it. -/
def implicitPackage : String := "java.lang."

/-- A class by its name; a name without a dot may leave the implicit package
out. -/
def lookup? (store : Store) (name : String) : Option ClassId :=
  match store.idOf? name with
  | some id => some id
  | none =>
    if name.toList.contains '.' then none
    else store.idOf? (implicitPackage ++ name)

/-! ## Names -/

def eraseName (names : List (String × ClassId)) (name : String) :
    List (String × ClassId) :=
  names.filter fun entry => entry.1 ≠ name

def putName (names : List (String × ClassId)) (name : String) (id : ClassId) :
    List (String × ClassId) :=
  (name, id) :: eraseName names name

/-- The number for a name: the one it has, or the next one, under which the
class is still undefined. -/
def intern (store : Store) (name : String) : ClassId × Store :=
  match store.idOf? name with
  | some id => (id, store)
  | none =>
    let id : ClassId := ⟨store.size⟩
    (id, { store with
      classes := store.classes.push (.placeholder id name)
      names := putName store.names name id })

/-! ## Definitions -/

/-- The members of a definition as handles, numbered from `serial` on. -/
def enroll (id : ClassId) (owner : String) (serial : Nat) (members : List MemberDef) :
    List Member :=
  members.mapIdx fun slot member =>
    { member with serial := serial + slot, declaringClass := id, owner, slot }

def record (id : ClassId) (definition : ClassDef) (serial : Nat) : ClassInfo :=
  { id
    name := definition.name
    kind := definition.kind
    superclass := definition.superclass
    interfaces := definition.interfaces
    members := enroll id definition.name serial definition.members
    synthetic := definition.synthetic
    restricted := definition.restricted }

/-- Defines the class numbered `id`, or defines it again.  Its previous name is
given up if the definition has another.  A number that the store does not have
is ignored. -/
def define (store : Store) (id : ClassId) (definition : ClassDef) : Store :=
  match store.class? id with
  | none => store
  | some previous =>
    let kept :=
      if previous.name = definition.name then store.names
      else eraseName store.names previous.name
    { classes := store.classes.setIfInBounds id.index
        (record id definition store.nextSerial)
      names := putName kept definition.name id
      nextSerial := store.nextSerial + definition.members.length }

def add (store : Store) (definition : ClassDef) : ClassId × Store :=
  let (id, named) := store.intern definition.name
  (id, named.define id definition)

def member? (store : Store) (id : ClassId) (slot : Nat) : Option Member :=
  (store.class? id).bind fun info => info.members[slot]?

/-- The position of a member among those its class declares now. -/
def slotOf? (store : Store) (member : Member) : Option Nat :=
  (store.class? member.declaringClass).bind fun info =>
    info.members.findIdx? fun other => other.serial = member.serial

end Store

end MemberDispatch
