import MemberDispatch.Invoke.Call

/-!
# The three ends of a call

A call is refused because access is denied, or because it does not bind, or it
runs what it has bound.  Only the last touches the log of runs, and only if the
selected member has a body; bodies themselves log nothing.
-/

set_option autoImplicit false

namespace MemberDispatch

@[simp] theorem mapError_ok {α β γ : Type} (f : α → β) (value : γ) :
    (Except.ok value).mapError f = .ok value := rfl

@[simp] theorem mapError_error {α β γ : Type} (f : α → β) (failure : α) :
    (Except.error failure : Except α γ).mapError f = .error (f failure) := rfl

/-! ## What leaves the log of runs alone -/

@[simp] theorem RunState.calls_log (state : RunState) (events : List Event) :
    (state.log events).calls = state.calls := rfl

@[simp] theorem RunState.accessible_log (state : RunState) (events : List Event)
    (member : Member) : (state.log events).accessible member = state.accessible member := rfl

@[simp] theorem RunState.calls_relax (state : RunState) (member : Member) :
    (state.relax member).2.calls = state.calls := by
  rw [RunState.relax]
  split <;> rfl

@[simp] theorem RunState.log_nil (state : RunState) : state.log [] = state := by
  simp [RunState.log]

@[simp] theorem Body.calls_run (body : Body) (receiver : Option Value) (args : List Value)
    (state : RunState) : (body.run receiver args state).2.calls = state.calls := by
  cases body <;> rfl

@[simp] theorem Body.relaxed_run (body : Body) (receiver : Option Value) (args : List Value)
    (state : RunState) : (body.run receiver args state).2.relaxed = state.relaxed := by
  cases body <;> rfl

@[simp] theorem RunState.tallies_relax (state : RunState) (member : Member) :
    (state.relax member).2.tallies = state.tallies := by
  rw [RunState.relax]
  split <;> rfl

/-- Between the two states nothing was opened and no body ran; they may differ in
events and in the numbers for new objects and throwables. -/
structure RunState.Quiet (before after : RunState) : Prop where
  relaxed : after.relaxed = before.relaxed
  tallies : after.tallies = before.tallies
  calls : after.calls = before.calls

theorem RunState.Quiet.refl (state : RunState) : state.Quiet state := ⟨rfl, rfl, rfl⟩

theorem RunState.quiet_log (state : RunState) (events : List Event) :
    state.Quiet (state.log events) := ⟨rfl, rfl, rfl⟩

theorem RunState.Quiet.log {before after : RunState} (quiet : before.Quiet after)
    (events : List Event) : before.Quiet (after.log events) :=
  ⟨quiet.relaxed, quiet.tallies, quiet.calls⟩

theorem RunState.Quiet.accessible {before after : RunState} (quiet : before.Quiet after)
    (member : Member) : after.accessible member = before.accessible member := by
  rw [RunState.accessible, RunState.accessible, quiet.relaxed]

def Store.BoundCall.record (bound : Store.BoundCall) : CallRecord :=
  ⟨bound.implementation, bound.receiver.map Store.BoundReceiver.value, bound.args⟩

namespace Scope

variable {scope : Scope} {target : Option Value} {member : Member} {args : List Value}
  {state : RunState}

@[simp] theorem calls_ensureAccessible :
    (scope.ensureAccessible member state).2.calls = state.calls := by
  rw [ensureAccessible]
  split
  · rfl
  · split
    · rfl
    · simp

@[simp] theorem tallies_ensureAccessible :
    (scope.ensureAccessible member state).2.tallies = state.tallies := by
  rw [ensureAccessible]
  split
  · rfl
  · split
    · rfl
    · exact RunState.tallies_relax state member

@[simp] theorem ensureAccessible_log (events : List Event) :
    (scope.ensureAccessible member (state.log events)).1 =
      (scope.ensureAccessible member state).1 := by
  rw [ensureAccessible, ensureAccessible, RunState.accessible_log]
  split
  · rfl
  · split <;> rfl

/-! ## Access -/

/-- Whether a call passes the access check: the member is accessible already,
or its class lets it be opened. -/
def grants (scope : Scope) (member : Member) (state : RunState) : Bool :=
  state.accessible member || !scope.forbidsAccess member

theorem outcome_ensureAccessible :
    (scope.ensureAccessible member state).1 =
      if scope.grants member state = true then .ok ()
      else .error (.accessDenied (scope.qualifiedSignature member)) := by
  rw [ensureAccessible, grants]
  cases state.accessible member <;> cases scope.forbidsAccess member <;> rfl

theorem ensureAccessible_eq_ok_iff :
    (scope.ensureAccessible member state).1 = .ok () ↔ scope.grants member state = true := by
  rw [outcome_ensureAccessible]
  split <;> simp_all

theorem grants_of_quiet {before after : RunState} (quiet : before.Quiet after) :
    scope.grants member after = scope.grants member before := by
  rw [grants, grants, quiet.accessible]

theorem ensureAccessible_of_closed (closed : scope.grants member state = false) :
    scope.ensureAccessible member state =
      (.error (.accessDenied (scope.qualifiedSignature member)), state) := by
  rw [grants, Bool.or_eq_false_iff, Bool.not_eq_false'] at closed
  simp [ensureAccessible, closed.1, closed.2]

/-! ## The ends -/

theorem outcome_runBound_of_body {bound : Store.BoundCall} {body : Body}
    (runs : bound.implementation.body = some body) :
    (scope.runBound bound state).1 =
      (body.run bound.record.receiver bound.record.args
        (state.recordCall bound.record)).1.mapError fun thrown =>
          .raised thrown (scope.store.throwableKind thrown.classId) := by
  simp only [runBound, runs, Store.BoundCall.record]
  split <;> rename_i ended <;> rw [ended] <;> rfl

/-- A body runs on exactly what is logged of its run. -/
theorem state_runBound_of_body {bound : Store.BoundCall} {body : Body}
    (runs : bound.implementation.body = some body) :
    (scope.runBound bound state).2 =
      (body.run bound.record.receiver bound.record.args
        (state.recordCall bound.record)).2 := by
  simp only [runBound, runs, Store.BoundCall.record]
  split <;> rename_i ended <;> rw [ended]

/-- All the ways in which a call ends, with its outcome and the state it leaves. -/
inductive CallEnds (scope : Scope) (target : Option Value) (member : Member)
    (args : List Value) (state : RunState) : Except CallFailure Value × RunState → Prop where
  | denied (closed : scope.grants member state = false) :
      CallEnds scope target member args state
        (.error (.refused (.accessDenied (scope.qualifiedSignature member))), state)
  | unbound {reason : BindingFault} (granted : scope.grants member state = true)
      (failed : scope.store.bindCall target member args = .error reason) :
      CallEnds scope target member args state
        (.error (.refused
          (scope.bindingFailure member reason (scope.ensureAccessible member state).2).1),
        (scope.bindingFailure member reason (scope.ensureAccessible member state).2).2)
  | bodiless {bound : Store.BoundCall} (granted : scope.grants member state = true)
      (binds : scope.store.bindCall target member args = .ok bound)
      (none : bound.implementation.body = none) :
      CallEnds scope target member args state
        (.error (.raised (scope.abstractFailure bound.implementation
          (scope.ensureAccessible member state).2).1 .error),
        (scope.abstractFailure bound.implementation (scope.ensureAccessible member state).2).2)
  | ran {bound : Store.BoundCall} {body : Body} (granted : scope.grants member state = true)
      (binds : scope.store.bindCall target member args = .ok bound)
      (runs : bound.implementation.body = some body) :
      CallEnds scope target member args state
        ((body.run bound.record.receiver bound.record.args
          ((scope.ensureAccessible member state).2.recordCall bound.record)).1.mapError
            fun thrown => .raised thrown (scope.store.throwableKind thrown.classId),
        (body.run bound.record.receiver bound.record.args
          ((scope.ensureAccessible member state).2.recordCall bound.record)).2)

theorem call_ends (scope : Scope) (target : Option Value) (member : Member)
    (args : List Value) (state : RunState) :
    scope.CallEnds target member args state (scope.call target member args state) := by
  rw [call]
  cases granted : scope.grants member state with
  | false =>
      rw [ensureAccessible_of_closed granted]
      exact .denied granted
  | true =>
      have opened : scope.ensureAccessible member state =
          (.ok (), (scope.ensureAccessible member state).2) :=
        Prod.ext (ensureAccessible_eq_ok_iff.mpr granted) rfl
      rw [opened]
      dsimp only
      cases binds : scope.store.bindCall target member args with
      | error reason => exact .unbound granted binds
      | ok bound =>
          dsimp only
          cases runs : bound.implementation.body with
          | none =>
              rw [runBound, runs]
              exact .bodiless granted binds runs
          | some body =>
              have ran := CallEnds.ran granted binds runs
              rwa [← outcome_runBound_of_body runs, ← state_runBound_of_body runs] at ran

/-- A call is refused as invalid exactly if access is granted and it does not
bind, and the refusal is the one that reports why it does not. -/
theorem call_eq_invalid_iff {signature : String} {reason : BindingFault} {cause : Throwable} :
    (scope.call target member args state).1 =
        .error (.refused (.invalidArguments signature reason cause)) ↔
      scope.grants member state = true ∧
        scope.store.bindCall target member args = .error reason ∧
        (scope.bindingFailure member reason (scope.ensureAccessible member state).2).1 =
          .invalidArguments signature reason cause := by
  have ends := scope.call_ends target member args state
  generalize scope.call target member args state = result at ends ⊢
  cases ends with
  | denied closed => simp [closed]
  | @unbound given granted failed =>
      simp only [granted, failed, true_and, Except.error.injEq, CallFailure.refused.injEq]
      constructor
      · intro reported
        obtain rfl : given = reason := by
          simp only [bindingFailure, Fault.invalidArguments.injEq] at reported
          exact reported.2.1
        exact ⟨rfl, reported⟩
      · rintro ⟨rfl, reported⟩
        exact reported
  | bodiless granted binds none => simp [binds]
  | ran granted binds runs =>
      simp only [binds, reduceCtorEq, false_and, and_false, iff_false]
      generalize (Body.run _ _ _ _).1 = outcome
      cases outcome with
      | ok value => simp
      | error thrown => simp

/-! ## The wrapping contract -/

theorem mapError_wrapped_eq_invalid_iff {outcome : Except CallFailure Value} {signature : String}
    {reason : BindingFault} {cause : Throwable} :
    outcome.mapError CallFailure.wrapped = .error (.invalidArguments signature reason cause) ↔
      outcome = .error (.refused (.invalidArguments signature reason cause)) := by
  cases outcome with
  | ok value => simp
  | error failure =>
      cases failure with
      | raised thrown kind => cases kind <;> simp [CallFailure.wrapped, Fault.ofRaised]
      | refused fault => simp [CallFailure.wrapped]

theorem outcome_invoke :
    (scope.invoke target member args state).1 =
      (scope.call target member args state).1.mapError CallFailure.wrapped := by
  rw [invoke]
  split <;> rename_i ended <;> rw [ended] <;> rfl

theorem state_invoke (scope : Scope) (target : Option Value) (member : Member)
    (args : List Value) (state : RunState) :
    ∃ events, (scope.invoke target member args state).2 =
      (scope.call target member args state).2.log events := by
  rw [invoke]
  split <;> rename_i ended
  · exact ⟨[], by rw [ended, RunState.log_nil]⟩
  · exact ⟨_, by rw [ended]⟩

/-- The same under the contract that wraps: the reason is the one that binding
gives. -/
theorem invoke_eq_invalid_iff {reason : BindingFault} :
    (∃ signature cause, (scope.invoke target member args state).1 =
        .error (.invalidArguments signature reason cause)) ↔
      (scope.ensureAccessible member state).1 = .ok () ∧
        scope.store.bindCall target member args = .error reason := by
  simp only [outcome_invoke, mapError_wrapped_eq_invalid_iff, call_eq_invalid_iff,
    ensureAccessible_eq_ok_iff]
  constructor
  · rintro ⟨signature, cause, granted, failed, -⟩
    exact ⟨granted, failed⟩
  · rintro ⟨granted, failed⟩
    exact ⟨_, _, granted, failed, rfl⟩

/-- Where access is granted, a call is refused as invalid exactly if it does not
bind. -/
theorem invoke_invalid_iff (opened : (scope.ensureAccessible member state).1 = .ok ()) :
    (∃ signature reason cause, (scope.invoke target member args state).1 =
        .error (.invalidArguments signature reason cause)) ↔
      ¬ ∃ bound, scope.store.bindCall target member args = .ok bound := by
  rw [exists_comm]
  simp only [invoke_eq_invalid_iff, opened, true_and]
  cases scope.store.bindCall target member args <;> simp

end Scope

end MemberDispatch
