import MemberDispatch.Delegate
import MemberDispatch.Invoke.ByName
import MemberDispatch.Proofs.Invoke.Call

/-!
# The ways into a call

Whichever way a call comes in, it first looks for its member, and without one
nothing happens but events.  With one it is a single call of that member, with
events around it.
-/

set_option autoImplicit false

namespace MemberDispatch

/-- A member with what it is called with. -/
structure Request where
  target : Option Value
  member : Member
  args : List Value

/-- One body ran between two states, on what the log says of its run. -/
structure Ran (before after : RunState) (run : CallRecord) : Prop where
  logged : after.calls = before.calls ++ [run]
  executed : ∃ (body : Body) (start : RunState) (events : List Event),
    run.member.body = some body ∧ start.calls = before.calls ∧
    after = ((body.run run.receiver run.args (start.recordCall run)).2).log events

def failure? {α : Type} : Except Fault α → Option Fault
  | .ok _ => none
  | .error fault => some fault

theorem failure?_map {α β : Type} (outcome : Except Fault α) (f : α → β) :
    failure? (outcome.map f) = failure? outcome := by
  cases outcome <;> rfl

/-- Making the context of a handler opens and runs nothing. -/
theorem Delegate.quiet_handlerArguments (delegate : Delegate) (invoked : String)
    (args : List Value) (count : Nat) (state : RunState) :
    state.Quiet (delegate.handlerArguments invoked args count state).2 := by
  rw [handlerArguments]
  cases delegate.scope.context with
  | none => exact .refl state
  | some context => cases delegate.takesContext <;> exact ⟨rfl, rfl, rfl⟩

inductive Entry (scope : Scope) where
  | call (target : Option Value) (member : Member) (args : List Value)
  | invoke (target : Option Value) (member : Member) (args : List Value)
  | callSpecified (start : ClassId) (target : Option Value) (name : String)
    (types : List Ty) (args : List Value)
  | invokeSpecified (start : ClassId) (target : Option Value) (name : String)
    (types : List Ty) (args : List Value)
  | invokeInstance (start : ClassId) (target : Value) (name : String) (args : List Value)
  | invokeStatic (start : ClassId) (name : String) (args : List Value)
  | invokePublic (start : ClassId) (target : Option Value) (name : String)
    (types : List Ty) (args : List Value)
  | dispatch (delegate : Delegate) (within : delegate.scope = scope) (invoked : String)
    (args : List Value)

namespace Entry

variable {scope : Scope}

/-- The state that an entry leaves. -/
def run : Entry scope → RunState → RunState
  | call target member args, state => (scope.call target member args state).2
  | invoke target member args, state => (scope.invoke target member args state).2
  | callSpecified start target name types args, state =>
    (scope.callSpecified start target name types args state).2
  | invokeSpecified start target name types args, state =>
    (scope.invokeSpecified start target name types args state).2
  | invokeInstance start target name args, state =>
    (scope.invokeInstance start target name args state).2
  | invokeStatic start name args, state => (scope.invokeStatic start name args state).2
  | invokePublic start target name types args, state =>
    (scope.invokePublic? start target name types args state).2
  | dispatch delegate _ invoked args, state => (delegate.dispatch invoked args state).2.2

/-- What an entry calls, if its search finds a member. -/
def request? : Entry scope → RunState → Option Request
  | call target member args, _ => some ⟨target, member, args⟩
  | invoke target member args, _ => some ⟨target, member, args⟩
  | callSpecified start target name types args, _ =>
    (scope.findSpecified start name types).toOption.map (⟨target, ·, args⟩)
  | invokeSpecified start target name types args, _ =>
    (scope.findSpecified start name types).toOption.map (⟨target, ·, args⟩)
  | invokeInstance start target name args, _ =>
    (scope.store.typeArguments args).toOption.bind fun typed =>
      (scope.findCompatible start name typed.types).toOption.map (⟨some target, ·, typed.values⟩)
  | invokeStatic start name args, _ =>
    (scope.store.typeArguments args).toOption.bind fun typed =>
      (scope.findStatic start name typed.types).toOption.map (⟨none, ·, typed.values⟩)
  | invokePublic start target name types args, _ =>
    (scope.store.findPublic? start name types).map (⟨target, ·, args⟩)
  | dispatch delegate _ invoked args, state =>
    some ⟨some delegate.handler, delegate.member,
      (delegate.handlerArguments invoked args (delegate.dispatched + 1) state).1⟩

/-- How an entry fails, as seen under the contract that wraps. -/
def fault? : Entry scope → RunState → Option Fault
  | call target member args, state =>
    failure? ((scope.call target member args state).1.mapError CallFailure.wrapped)
  | invoke target member args, state => failure? (scope.invoke target member args state).1
  | callSpecified start target name types args, state =>
    failure? ((scope.callSpecified start target name types args state).1.mapError
      CallFailure.wrapped)
  | invokeSpecified start target name types args, state =>
    failure? (scope.invokeSpecified start target name types args state).1
  | invokeInstance start target name args, state =>
    failure? (scope.invokeInstance start target name args state).1
  | invokeStatic start name args, state => failure? (scope.invokeStatic start name args state).1
  | invokePublic start target name types args, state =>
    failure? (scope.invokePublic? start target name types args state).1
  | dispatch delegate _ invoked args, state =>
    failure? ((delegate.dispatch invoked args state).1.mapError CallFailure.wrapped)

/-- One call with nothing but events before and after it: it ends in the state
`after`, and it fails as the call does. -/
def Follows (scope : Scope) (request : Request) (before : RunState) (fault : Option Fault)
    (after : RunState) : Prop :=
  ∃ (start : RunState) (events : List Event), before.Quiet start ∧
    fault = failure? ((scope.call request.target request.member request.args start).1.mapError
      CallFailure.wrapped) ∧
    after = (scope.call request.target request.member request.args start).2.log events

theorem follows_call (request : Request) {before start : RunState}
    (quiet : before.Quiet start) :
    Follows scope request before
      (failure? ((scope.call request.target request.member request.args start).1.mapError
        CallFailure.wrapped))
      (scope.call request.target request.member request.args start).2 :=
  ⟨start, [], quiet, rfl, (RunState.log_nil _).symm⟩

theorem follows_invoke (request : Request) {before start : RunState}
    (quiet : before.Quiet start) :
    Follows scope request before
      (failure? (scope.invoke request.target request.member request.args start).1)
      (scope.invoke request.target request.member request.args start).2 := by
  obtain ⟨events, ends⟩ := Scope.state_invoke scope request.target request.member request.args start
  exact ⟨start, events, quiet, by rw [Scope.outcome_invoke], ends⟩

/-- Every entry is the call that it asks for, or it asks for nothing and nothing
is opened or run. -/
theorem run_follows (entry : Entry scope) (state : RunState) :
    (entry.request? state = none ∧ state.Quiet (entry.run state)) ∨
      ∃ request, entry.request? state = some request ∧
        Follows scope request state (entry.fault? state) (entry.run state) := by
  cases entry with
  | call target member args =>
      exact .inr ⟨_, rfl, follows_call ⟨target, member, args⟩ (.refl state)⟩
  | invoke target member args =>
      exact .inr ⟨_, rfl, follows_invoke ⟨target, member, args⟩ (.refl state)⟩
  | callSpecified start target name types args =>
      have quiet := state.quiet_log (scope.resolutionEvents ⟨name, types, .exact⟩ start)
      simp only [request?, run, fault?, Scope.callSpecified]
      cases scope.findSpecified start name types with
      | error fault => exact .inl ⟨rfl, quiet⟩
      | ok member => exact .inr ⟨_, rfl, follows_call ⟨target, member, args⟩ quiet⟩
  | invokeSpecified start target name types args =>
      have quiet := state.quiet_log (scope.resolutionEvents ⟨name, types, .exact⟩ start)
      simp only [request?, run, fault?, Scope.invokeSpecified]
      cases scope.findSpecified start name types with
      | error fault => exact .inl ⟨rfl, quiet⟩
      | ok member => exact .inr ⟨_, rfl, follows_invoke ⟨target, member, args⟩ quiet⟩
  | invokeInstance start target name args =>
      simp only [request?, run, fault?, Scope.invokeInstance]
      cases scope.store.typeArguments args with
      | error fault => exact .inl ⟨rfl, .refl state⟩
      | ok typed =>
          have quiet :=
            state.quiet_log (scope.resolutionEvents ⟨name, typed.types, .coercive⟩ start)
          simp only [Except.toOption, Option.bind_some]
          cases scope.findCompatible start name typed.types with
          | error fault => exact .inl ⟨rfl, quiet⟩
          | ok member =>
              exact .inr ⟨_, rfl, follows_invoke ⟨some target, member, typed.values⟩ quiet⟩
  | invokeStatic start name args =>
      simp only [request?, run, fault?, Scope.invokeStatic]
      cases scope.store.typeArguments args with
      | error fault => exact .inl ⟨rfl, .refl state⟩
      | ok typed =>
          have quiet :=
            state.quiet_log (scope.resolutionEvents ⟨name, typed.types, .coercive⟩ start)
          simp only [Except.toOption, Option.bind_some]
          cases scope.findStatic start name typed.types with
          | error fault => exact .inl ⟨rfl, quiet⟩
          | ok member =>
              exact .inr ⟨_, rfl, follows_invoke ⟨none, member, typed.values⟩ quiet⟩
  | invokePublic start target name types args =>
      simp only [request?, run, fault?, Scope.invokePublic?]
      cases scope.store.findPublic? start name types with
      | none => exact .inl ⟨rfl, .refl state⟩
      | some member =>
          refine .inr ⟨_, rfl, ?_⟩
          dsimp only
          rw [failure?_map]
          exact follows_invoke ⟨target, member, args⟩ (.refl state)
  | dispatch delegate within invoked args =>
      cases within
      have quiet := delegate.quiet_handlerArguments invoked args (delegate.dispatched + 1) state
      exact .inr ⟨_, rfl, follows_call ⟨_, _, _⟩ (quiet.log _)⟩

end Entry

end MemberDispatch
