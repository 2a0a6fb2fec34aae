import MemberDispatch.Invoke.Arguments
import MemberDispatch.Invoke.Call
import MemberDispatch.Resolve.Handler

/-!
# Delegates

A delegate stands between intercepted calls and a handler object.  It counts
the calls it dispatches, and gives a handler that asks for it a fresh context
with the intercepted member and the count.
-/

set_option autoImplicit false

namespace MemberDispatch

structure Delegate where
  scope : Scope
  handler : Value
  member : Member
  /-- The first parameter of the handler is the context. -/
  takesContext : Bool
  dispatched : Nat

namespace Delegate

def asksForContext (scope : Scope) (member : Member) : Bool :=
  match scope.context, member.params.head? with
  | some context, some (.ofClass first) => first = context
  | _, _ => false

def ofHandler (scope : Scope) (handler : Value) : Except Fault Delegate :=
  (scope.findHandler handler).map fun member =>
    { scope, handler, member, takesContext := asksForContext scope member, dispatched := 0 }

def handlerArguments (delegate : Delegate) (invoked : String) (args : List Value)
    (count : Nat) (state : RunState) : List Value × RunState :=
  match delegate.scope.context with
  | some context =>
    if delegate.takesContext then
      let (reference, state) := state.newObject context (some ⟨invoked, count⟩)
      (withLeadingArgument args (.object reference), state)
    else (args, state)
  | none => (args, state)

/-- Runs the handler for one intercepted call and counts it, whatever becomes
of it. -/
def dispatch (delegate : Delegate) (invoked : String) (args : List Value)
    (state : RunState) : Except CallFailure Value × Delegate × RunState :=
  let count := delegate.dispatched + 1
  let (args, state) := delegate.handlerArguments invoked args count state
  let state := state.log
    [.handlerCalled invoked (delegate.scope.signature delegate.member) count]
  let (outcome, state) :=
    delegate.scope.call (some delegate.handler) delegate.member args state
  (outcome, { delegate with dispatched := count }, state)

end Delegate

end MemberDispatch
