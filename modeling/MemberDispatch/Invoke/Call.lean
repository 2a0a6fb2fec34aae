import MemberDispatch.Invoke.Binding
import MemberDispatch.RunState

/-!
# Calls

A call relaxes the access checks of the member, binds receiver and arguments,
and runs the member that is selected for the receiver.  `Scope.call` passes on
whatever the member raises; `Scope.invoke` wraps what has to be declared.
-/

set_option autoImplicit false

namespace MemberDispatch.Scope

def forbidsAccess (scope : Scope) (member : Member) : Bool :=
  match scope.store.class? member.declaringClass with
  | none => false
  | some info => info.restricted

def ensureAccessible (scope : Scope) (member : Member) (state : RunState) :
    Except Fault Unit × RunState :=
  if state.accessible member then (.ok (), state)
  else if scope.forbidsAccess member then
    (.error (.accessDenied (scope.qualifiedSignature member)), state)
  else
    (.ok (), (state.relax member).2.log [.accessRelaxed (scope.qualifiedSignature member)])

/-- The stack of a binding failure: the member that was called, then the
caller's frames, the hidden ones left out. -/
def bindingStack (scope : Scope) (member : Member) : List StackFrame :=
  Throwable.visibleFrames scope.hiddenFrames
    (⟨scope.store.className member.declaringClass, member.name⟩ :: scope.callSite)

def bindingFailure (scope : Scope) (member : Member) (reason : BindingFault)
    (state : RunState) : Fault × RunState :=
  let (ident, state) := state.newThrowable
  let record := scope.store.throwableRecord ident .illegalArgument (some reason.message)
    (scope.bindingStack member)
  (.invalidArguments (scope.qualifiedSignature member) reason (.uncaused record), state)

def abstractFailure (scope : Scope) (member : Member) (state : RunState) :
    Throwable × RunState :=
  let (ident, state) := state.newThrowable
  let record := scope.store.throwableRecord ident .abstractMethodError
    (some (scope.qualifiedSignature member)) []
  (.uncaused record, state)

/-- Runs a bound call and logs that its body ran. -/
def runBound (scope : Scope) (bound : Store.BoundCall) (state : RunState) :
    Except CallFailure Value × RunState :=
  match bound.implementation.body with
  | none =>
    let (thrown, state) := scope.abstractFailure bound.implementation state
    (.error (.raised thrown .error), state)
  | some body =>
    let receiver := bound.receiver.map Store.BoundReceiver.value
    let recorded := state.recordCall ⟨bound.implementation, receiver, bound.args⟩
    match body.run receiver bound.args recorded with
    | (.ok value, state) => (.ok value, state)
    | (.error thrown, state) =>
      (.error (.raised thrown (scope.store.throwableKind thrown.classId)), state)

def call (scope : Scope) (target : Option Value) (member : Member) (args : List Value)
    (state : RunState) : Except CallFailure Value × RunState :=
  match scope.ensureAccessible member state with
  | (.error fault, state) => (.error (.refused fault), state)
  | (.ok _, state) =>
    match scope.store.bindCall target member args with
    | .error reason =>
      let (fault, state) := scope.bindingFailure member reason state
      (.error (.refused fault), state)
    | .ok bound => scope.runBound bound state

def failureEvents (scope : Scope) (member : Member) : CallFailure → List Event
  | .raised thrown kind => [.memberRaised (scope.signature member) thrown kind]
  | .refused _ => []

/-- Calls a member; errors and unchecked exceptions come back as they are, and
a checked exception as undeclared. -/
def invoke (scope : Scope) (target : Option Value) (member : Member) (args : List Value)
    (state : RunState) : Except Fault Value × RunState :=
  match scope.call target member args state with
  | (.ok value, state) => (.ok value, state)
  | (.error failure, state) =>
    (.error failure.wrapped, state.log (scope.failureEvents member failure))

end MemberDispatch.Scope
