import MemberDispatch.Hierarchy.Subtyping

/-!
# Faults

Why a search or a call failed.  Each fault is a cause; its wording is given by
one function, and so is the broader kind that callers branch on.  A call under
the checked contract keeps what the member raised apart from the faults of the
dispatcher.
-/

set_option autoImplicit false

namespace MemberDispatch

inductive HandlerKind where
  | delegate
  | invocationHandler
deriving DecidableEq, Inhabited

def HandlerKind.label : HandlerKind → String
  | .delegate => "delegate"
  | .invocationHandler => "invocation handler"

def ThrowableKind.label : ThrowableKind → String
  | .error => "Error"
  | .unchecked => "Unchecked"
  | .checked => "Checked"

inductive BindingFault where
  | noReceiver
  | receiverWithoutClass
  | notAnInstance
  | argumentCount (given expected : Nat)
  | mismatchAt (position : Nat)
deriving DecidableEq, Inhabited

def BindingFault.message : BindingFault → String
  | .noReceiver => "no receiver for instance method"
  | .receiverWithoutClass => "receiver has no class"
  | .notAnInstance => "object is not an instance of declaring class"
  | .argumentCount given expected =>
    "wrong number of arguments: " ++ toString given ++ " expected: " ++ toString expected
  | .mismatchAt position => "argument type mismatch at position " ++ toString position

inductive Fault where
  | nullArgument (position : Nat)
  /-- `types` is the rendered list of parameter types asked for. -/
  | specifiedNotFound (name types : String)
  | noCompatible (name types : String)
  | noCompatibleStatic (name types : String)
  /-- `signature` names the instance member that was found. -/
  | instanceWithoutReceiver (signature : String)
  /-- `cause` is the throwable that reports the reason to the caller. -/
  | invalidArguments (signature : String) (reason : BindingFault) (cause : Throwable)
  | accessDenied (signature : String)
  | ambiguousHandler (kind : HandlerKind) (first second : String)
  | noHandler
  | targetError (thrown : Throwable)
  | targetUnchecked (thrown : Throwable)
  | undeclaredChecked (thrown : Throwable)
deriving DecidableEq, Inhabited

inductive FailureKind where
  | argumentMismatch
  | ambiguousHandler
  | noHandlerFound
  | accessDenied
  | targetRaised (kind : ThrowableKind)
deriving DecidableEq, Inhabited

namespace Fault

/-- What a member raised, as seen under the contract that wraps what has to be
declared. -/
def ofRaised (thrown : Throwable) : ThrowableKind → Fault
  | .error => targetError thrown
  | .unchecked => targetUnchecked thrown
  | .checked => undeclaredChecked thrown

def message : Fault → String
  | nullArgument position =>
    "Invalid null value passed as argument " ++ toString position
  | specifiedNotFound name types => "Specified method not found: " ++ name ++ types
  | noCompatible name types => "No compatible method found: " ++ name ++ types
  | noCompatibleStatic name types => "No compatible static method found: " ++ name ++ types
  | instanceWithoutReceiver _ =>
    "Attempted to invoke non-static method without an instance to invoke it on"
  | invalidArguments signature _ _ => "Failure to invoke method: " ++ signature
  | accessDenied signature =>
    "Cannot make " ++ signature ++
      " accessible: its class does not permit reflective access"
  | ambiguousHandler kind first second =>
    "More than one candidate " ++ kind.label ++ " method found: " ++ first ++ ", " ++ second
  | noHandler => "No non-private instance method found"
  | targetError thrown => thrown.text
  | targetUnchecked thrown => thrown.text
  | undeclaredChecked thrown => "Undeclared checked exception thrown: " ++ thrown.text

def kind : Fault → FailureKind
  | nullArgument _ => .argumentMismatch
  | specifiedNotFound _ _ => .argumentMismatch
  | noCompatible _ _ => .argumentMismatch
  | noCompatibleStatic _ _ => .argumentMismatch
  | instanceWithoutReceiver _ => .argumentMismatch
  | invalidArguments _ _ _ => .argumentMismatch
  | accessDenied _ => .accessDenied
  | ambiguousHandler _ _ _ => .ambiguousHandler
  | noHandler => .noHandlerFound
  | targetError _ => .targetRaised .error
  | targetUnchecked _ => .targetRaised .unchecked
  | undeclaredChecked _ => .targetRaised .checked

def thrown? : Fault → Option Throwable
  | targetError thrown => some thrown
  | targetUnchecked thrown => some thrown
  | undeclaredChecked thrown => some thrown
  | _ => none

/-- The throwables behind a fault, nearest first.  A fault that passes on what
the member raised speaks for that throwable itself, so its sources start at
the cause. -/
def sources : Fault → List Throwable
  | invalidArguments _ _ cause => cause :: cause.causes
  | undeclaredChecked thrown => thrown :: thrown.causes
  | targetError thrown => thrown.causes
  | targetUnchecked thrown => thrown.causes
  | _ => []

theorem kind_ofRaised (thrown : Throwable) (kind : ThrowableKind) :
    (ofRaised thrown kind).kind = .targetRaised kind := by
  cases kind <;> rfl

theorem thrown?_ofRaised (thrown : Throwable) (kind : ThrowableKind) :
    (ofRaised thrown kind).thrown? = some thrown := by
  cases kind <;> rfl

end Fault

inductive CallFailure where
  | raised (thrown : Throwable) (kind : ThrowableKind)
  | refused (fault : Fault)
deriving DecidableEq, Inhabited

namespace CallFailure

def message : CallFailure → String
  | raised thrown _ => thrown.text
  | refused fault => fault.message

def kind : CallFailure → FailureKind
  | raised _ kind => .targetRaised kind
  | refused fault => fault.kind

def thrown? : CallFailure → Option Throwable
  | raised thrown _ => some thrown
  | refused _ => none

/-- The same failure under the contract that wraps what has to be declared. -/
def wrapped : CallFailure → Fault
  | raised thrown kind => .ofRaised thrown kind
  | refused fault => fault

end CallFailure

end MemberDispatch
