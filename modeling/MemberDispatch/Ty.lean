import MemberDispatch.Primitive

/-!
# Types

A class is named by its number in the store; a type is `void`, a primitive
kind, a class, or an array of a type.  The platform's own classes have fixed
numbers, because every store starts from the same platform.
-/

set_option autoImplicit false

namespace MemberDispatch

/-- The number of a class.  A number past the end of the store is a class
that nobody has defined. -/
structure ClassId where
  index : Nat
deriving DecidableEq, Inhabited

/-! ## The platform's classes -/

namespace ClassId

def object : ClassId := ⟨0⟩
def serializable : ClassId := ⟨1⟩
def cloneable : ClassId := ⟨2⟩
def comparable : ClassId := ⟨3⟩
def charSequence : ClassId := ⟨4⟩
def string : ClassId := ⟨5⟩
/-- Type tokens are instances of this class. -/
def typeToken : ClassId := ⟨6⟩
def number : ClassId := ⟨7⟩
def throwable : ClassId := ⟨16⟩
def error : ClassId := ⟨17⟩
def exception : ClassId := ⟨18⟩
def runtimeException : ClassId := ⟨19⟩
def illegalArgument : ClassId := ⟨20⟩
def illegalState : ClassId := ⟨21⟩
def abstractMethodError : ClassId := ⟨22⟩
def inputOutput : ClassId := ⟨23⟩
/-- The context a handler may ask for as its first argument. -/
def invocation : ClassId := ⟨24⟩
/-- The marker that delegate objects carry. -/
def delegate : ClassId := ⟨25⟩

end ClassId

def Primitive.wrapper : Primitive → ClassId
  | .boolean => ⟨8⟩
  | .byte => ⟨9⟩
  | .short => ⟨10⟩
  | .char => ⟨11⟩
  | .int => ⟨12⟩
  | .long => ⟨13⟩
  | .float => ⟨14⟩
  | .double => ⟨15⟩

def ClassId.unboxed? (id : ClassId) : Option Primitive :=
  Primitive.all.find? fun kind => kind.wrapper = id

theorem ClassId.unboxed?_wrapper (kind : Primitive) :
    kind.wrapper.unboxed? = some kind := by
  cases kind <;> decide

theorem ClassId.unboxed?_eq_some_iff {id : ClassId} {kind : Primitive} :
    id.unboxed? = some kind ↔ id = kind.wrapper := by
  constructor
  · intro found
    have matched := List.find?_some found
    exact (of_decide_eq_true matched).symm
  · rintro rfl
    exact unboxed?_wrapper kind

theorem Primitive.wrapper_inj {kind other : Primitive} :
    kind.wrapper = other.wrapper ↔ kind = other := by
  constructor
  · intro same
    have unboxed := congrArg ClassId.unboxed? same
    rw [ClassId.unboxed?_wrapper, ClassId.unboxed?_wrapper] at unboxed
    exact Option.some.inj unboxed
  · exact congrArg wrapper

/-! ## Types -/

inductive Ty where
  | void
  | primitive (kind : Primitive)
  | ofClass (id : ClassId)
  | array (component : Ty)
deriving DecidableEq, Inhabited

namespace Ty

def isPrimitive : Ty → Bool
  | primitive _ => true
  | _ => false

/-- Classes and arrays: the types that `null` belongs to. -/
def isReference : Ty → Bool
  | ofClass _ => true
  | array _ => true
  | _ => false

/-- The kind a type boxes, for the eight wrapper classes alone. -/
def unboxed? : Ty → Option Primitive
  | ofClass id => id.unboxed?
  | _ => none

/-- A primitive kind is replaced by its wrapper; other types stay. -/
def boxed : Ty → Ty
  | primitive kind => ofClass kind.wrapper
  | other => other

/-- Identical types, or a primitive kind beside its wrapper in either order. -/
def equivalent (first second : Ty) : Bool :=
  first = second ||
    match first, second with
    | primitive kind, other => other.unboxed? = some kind
    | other, primitive kind => other.unboxed? = some kind
    | _, _ => false

end Ty

end MemberDispatch
