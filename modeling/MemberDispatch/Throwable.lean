import MemberDispatch.Ty

/-!
# Throwables

What a member raises.  A throwable has an identity of its own, remembers the
name its class had when it was made, and may have been caused by another.
-/

set_option autoImplicit false

namespace MemberDispatch

structure StackFrame where
  className : String
  methodName : String
deriving DecidableEq, Inhabited

def StackFrame.text (frame : StackFrame) : String :=
  "at " ++ frame.className ++ "." ++ frame.methodName

/-- One throwable without its cause.  Two throwables are the same instance
when their numbers agree. -/
structure ThrowableRecord where
  ident : Nat
  classId : ClassId
  className : String
  message : Option String
  /-- Innermost frame first. -/
  stack : List StackFrame
deriving DecidableEq, Inhabited

inductive Throwable where
  | uncaused (record : ThrowableRecord)
  | caused (record : ThrowableRecord) (cause : Throwable)
deriving DecidableEq, Inhabited

namespace Throwable

def ofRecord (record : ThrowableRecord) : Option Throwable → Throwable
  | none => uncaused record
  | some cause => caused record cause

def record : Throwable → ThrowableRecord
  | uncaused record => record
  | caused record _ => record

def cause? : Throwable → Option Throwable
  | uncaused _ => none
  | caused _ cause => some cause

@[simp] theorem record_ofRecord (record : ThrowableRecord) (cause : Option Throwable) :
    (ofRecord record cause).record = record := by
  cases cause <;> rfl

@[simp] theorem cause?_ofRecord (record : ThrowableRecord) (cause : Option Throwable) :
    (ofRecord record cause).cause? = cause := by
  cases cause <;> rfl

def ident (thrown : Throwable) : Nat := thrown.record.ident
def classId (thrown : Throwable) : ClassId := thrown.record.classId
def className (thrown : Throwable) : String := thrown.record.className
def message (thrown : Throwable) : Option String := thrown.record.message
def stack (thrown : Throwable) : List StackFrame := thrown.record.stack

def sameInstance (first second : Throwable) : Bool :=
  first.ident = second.ident

def text (thrown : Throwable) : String :=
  match thrown.message with
  | none => thrown.className
  | some message => thrown.className ++ ": " ++ message

def causes : Throwable → List Throwable
  | uncaused _ => []
  | caused _ cause => cause :: cause.causes

/-! ## Hidden frames -/

def hidesFrame (prefixes : List String) (frame : StackFrame) : Bool :=
  prefixes.any fun start => start.toList.isPrefixOf frame.className.toList

def visibleFrames (prefixes : List String) (stack : List StackFrame) : List StackFrame :=
  stack.filter fun frame => !hidesFrame prefixes frame

/-- A new instance, numbered `ident`, that shows the visible frames alone. -/
def withVisibleFrames (thrown : Throwable) (prefixes : List String) (ident : Nat) : Throwable :=
  ofRecord
    { thrown.record with ident, stack := visibleFrames prefixes thrown.stack }
    thrown.cause?

theorem visibleFrames_idem (prefixes : List String) (stack : List StackFrame) :
    visibleFrames prefixes (visibleFrames prefixes stack) =
      visibleFrames prefixes stack := by
  simp [visibleFrames]

end Throwable

end MemberDispatch
