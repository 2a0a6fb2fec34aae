import MemberDispatch.Throwable
import MemberDispatch.Value

/-!
# Members and class definitions

A member as its class declares it, the definition of a class, and the records
that a store keeps once the class is defined.  A member of a defined class has
a serial number of its own, so that a handle to it stays the same member when
the class is defined again.
-/

set_option autoImplicit false

namespace MemberDispatch

inductive Visibility where
  | publicAccess
  | protectedAccess
  | packageAccess
  | privateAccess
deriving DecidableEq, Inhabited

inductive ClassKind where
  | concrete
  | interface
deriving DecidableEq, Inhabited

inductive Body where
  | give (value : Value)
  | raise (thrown : Throwable)
  /-- Returns the argument at a position, `void` where there is none. -/
  | argument (position : Nat)
  /-- Returns the receiver, `void` for a call without one. -/
  | receiver
  /-- Counts its runs, together with all bodies that name the same counter. -/
  | tally (counter : String)
  /-- Any function of the receiver, the arguments and the counters that bodies
  share. -/
  | native
    (run : Option Value → List Value → List (String × Nat) →
      Except Throwable Value × List (String × Nat))
deriving Inhabited

structure MemberDef where
  name : String
  params : List Ty
  returns : Ty
  isStatic : Bool
  visibility : Visibility
  /-- An abstract member has no body. -/
  body : Option Body
deriving Inhabited

namespace MemberDef

def isPublic (member : MemberDef) : Bool :=
  member.visibility = .publicAccess

def isPrivate (member : MemberDef) : Bool :=
  member.visibility = .privateAccess

end MemberDef

structure Member extends MemberDef where
  /-- No two members of a store share a serial. -/
  serial : Nat
  declaringClass : ClassId
  /-- The name of the class when it was defined. -/
  owner : String
  /-- The position among the members of that definition. -/
  slot : Nat
deriving Inhabited

structure ClassDef where
  name : String
  kind : ClassKind
  superclass : Option ClassId
  interfaces : List ClassId
  members : List MemberDef
  /-- A generated class stands in for its declared type. -/
  synthetic : Bool
  /-- A restricted class keeps its non-public members closed. -/
  restricted : Bool
deriving Inhabited

structure ClassInfo where
  id : ClassId
  name : String
  kind : ClassKind
  superclass : Option ClassId
  interfaces : List ClassId
  members : List Member
  synthetic : Bool
  restricted : Bool
deriving Inhabited

def ClassInfo.supertypes (info : ClassInfo) : List ClassId :=
  info.superclass.toList ++ info.interfaces

/-- The record of a class whose name is taken but which nobody has defined. -/
def ClassInfo.placeholder (id : ClassId) (name : String) : ClassInfo :=
  { id, name, kind := .concrete, superclass := none, interfaces := [], members := [],
    synthetic := false, restricted := false }

end MemberDispatch
