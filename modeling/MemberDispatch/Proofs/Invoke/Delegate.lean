import MemberDispatch.Proofs.Hierarchy.TypeOrder
import MemberDispatch.Proofs.Invoke.Binding
import MemberDispatch.Proofs.Invoke.Entry
import MemberDispatch.Proofs.Invoke.Override
import MemberDispatch.Proofs.Resolve.Handler

/-!
# Delegates run the handler they found

The search for a handler, the check of the receiver and the choice of an override
walk up the same superclasses with different ends.  What the search passes over
declares no possible handler, hence no override either: the member that runs is
the one that was found.  A context binds to the parameter that asks for it, so
that only access, the caller's own arguments and the body decide how a dispatched
call ends.
-/

set_option autoImplicit false

namespace MemberDispatch

/-! ## Handlers are not overridden -/

namespace Scope

variable {scope : Scope}

/-- What may run in the place of another member is a possible handler. -/
theorem overrideIn?_eq_none_of_no_handlers {id : ClassId} (member : Member)
    (empty : scope.handlersIn id = []) : scope.store.overrideIn? member id = none := by
  rw [Store.overrideIn?, List.find?_eq_none]
  intro other declared overrides
  simp only [Bool.and_eq_true, Bool.not_eq_true', decide_eq_true_eq] at overrides
  obtain ⟨⟨⟨onInstances, inherited⟩, _⟩, _⟩ := overrides
  have possible := mem_handlersIn_iff.mpr ⟨declared, inherited, onInstances⟩
  simp [empty] at possible

theorem selectOverride_of_handler (reached : scope.store.Reachable) {start id : ClassId}
    {member : Member} (first : scope.FirstHandling start id)
    (handles : member ∈ scope.handlersIn id) :
    scope.store.selectOverride start member = member := by
  obtain ⟨declared, inherited, _⟩ := mem_handlersIn_iff.mp handles
  obtain ⟨before, after, chain, skipped⟩ := first
  have passed : ∀ visited ∈ scope.store.overridingClasses start member,
      scope.store.overrideIn? member visited = none := by
    intro visited met
    rw [Store.overridingClasses, reached.declaringClass declared] at met
    exact overrideIn?_eq_none_of_no_handlers member
      (skipped visited (Store.mem_before_of_mem_superclasses chain met))
  rw [Store.selectOverride, if_neg (by simp [inherited]), List.findSome?_eq_none_iff.mpr passed,
    Option.getD_none]

theorem bindReceiver_of_handler (reached : scope.store.Reachable) {handler : Value}
    {start id : ClassId} {member : Member} (runtime : handler.classId? = some start)
    (first : scope.FirstHandling start id) (handles : member ∈ scope.handlersIn id) :
    scope.store.bindReceiver (some handler) member = .ok (some ⟨handler, start⟩) := by
  obtain ⟨declared, _, onInstances⟩ := mem_handlersIn_iff.mp handles
  have above : scope.store.isSubclass start member.declaringClass = true := by
    rw [reached.declaringClass declared]
    exact Store.isSubclass_of_path (ancestor_of_firstHandling first)
  exact (Store.bindReceiver_eq_ok_iff onInstances).mpr
    ⟨handler, start, rfl, runtime, above, rfl⟩

end Scope

/-! ## Leading arguments -/

/-- The same failure of a list with further arguments, which bind, before it. -/
def BindingFault.behind (leading : Nat) : BindingFault → BindingFault
  | .argumentCount given expected => .argumentCount (leading + given) (leading + expected)
  | .mismatchAt position => .mismatchAt (leading + position)
  | other => other

@[simp] theorem BindingFault.behind_zero (fault : BindingFault) : fault.behind 0 = fault := by
  cases fault <;> simp [behind]

namespace Store

variable {store : Store}

theorem bindFrom_behind (leading position : Nat) (params : List Ty) (args : List Value) :
    store.bindFrom (leading + position) params args =
      (store.bindFrom position params args).mapError (BindingFault.behind leading) := by
  induction params generalizing position args with
  | nil => rfl
  | cons param params ih =>
      cases args with
      | nil => rfl
      | cons argument args =>
          rw [bindFrom, bindFrom]
          cases store.bindValue param argument with
          | none => rfl
          | some value =>
              -- Positions are named by mismatches alone.
              have shifted := ih (position + 1) args
              rw [← Nat.add_assoc] at shifted
              dsimp only
              rw [shifted]
              cases store.bindFrom (position + 1) params args <;> rfl

/-- An argument that binds to the first parameter leaves the others to decide. -/
theorem bindArguments_cons {param : Ty} {params : List Ty} {argument value : Value}
    {args : List Value} (bound : store.bindValue param argument = some value) :
    store.bindArguments (param :: params) (argument :: args) =
      ((store.bindArguments params args).map (value :: ·)).mapError (BindingFault.behind 1) := by
  rw [bindArguments, bindArguments, List.length_cons, List.length_cons]
  by_cases counts : params.length = args.length
  · rw [if_pos counts, if_pos (by rw [counts]), bindFrom, bound]
    dsimp only
    rw [Nat.add_comm, bindFrom_behind]
    cases store.bindFrom 0 params args <;> rfl
  · rw [if_neg counts, if_neg (by omega)]
    simp [Except.map, BindingFault.behind, Nat.add_comm]

theorem bindValue_object (id : ClassId) (reference : ObjectRef) (instanceOf : reference.classId = id) :
    store.bindValue (.ofClass id) (.object reference) = some (.object reference) := by
  rw [bindValue_reference rfl (by simp)]
  simp [Value.classId?, instanceOf]

end Store

namespace Delegate

/-! ## Delegates in service -/

/-- The delegates that a handler gets: the one made for it, and what it becomes
with each call that it dispatches. -/
inductive Serves (scope : Scope) (handler : Value) : Delegate → Prop where
  | made {delegate : Delegate} (found : ofHandler scope handler = .ok delegate) :
      Serves scope handler delegate
  | dispatched {delegate : Delegate} (serves : Serves scope handler delegate)
      (invoked : String) (args : List Value) (state : RunState) :
      Serves scope handler (delegate.dispatch invoked args state).2.1

/-- What a delegate keeps from the search for its handler. -/
structure Keeps (scope : Scope) (handler : Value) (delegate : Delegate) : Prop where
  within : delegate.scope = scope
  holds : delegate.handler = handler
  found : scope.findHandler handler = .ok delegate.member
  asks : delegate.takesContext = asksForContext scope delegate.member

theorem Serves.keeps {scope : Scope} {handler : Value} {delegate : Delegate}
    (serves : Serves scope handler delegate) : Keeps scope handler delegate := by
  induction serves with
  | made found =>
      obtain ⟨member, searched, rfl⟩ := exists_of_map_eq_ok found
      exact ⟨rfl, rfl, searched, rfl⟩
  | dispatched _ invoked args state ih => exact ⟨ih.within, ih.holds, ih.found, ih.asks⟩

/-! ## Arguments of the handler -/

variable {delegate : Delegate}

def ownParams (delegate : Delegate) : List Ty :=
  if delegate.takesContext then delegate.member.params.tail else delegate.member.params

/-- The context that goes before the caller's arguments, if the handler takes
one. -/
def leading (delegate : Delegate) (invoked : String) (state : RunState) : List Value :=
  match delegate.scope.context with
  | some context =>
    if delegate.takesContext then
      [.object ⟨state.nextObject, context, some ⟨invoked, delegate.dispatched + 1⟩⟩]
    else []
  | none => []

theorem args_handlerArguments (invoked : String) (args : List Value) (state : RunState) :
    (delegate.handlerArguments invoked args (delegate.dispatched + 1) state).1 =
      delegate.leading invoked state ++ args := by
  rw [handlerArguments, leading]
  cases delegate.scope.context with
  | none => rfl
  | some context => cases delegate.takesContext <;> rfl

/-- The context that a call makes is a new object of the class that the first
parameter asks for. -/
theorem leading_of_takes {scope : Scope} {handler : Value} (keeps : Keeps scope handler delegate)
    (takes : delegate.takesContext = true) (invoked : String) (state : RunState) :
    ∃ reference : ObjectRef, delegate.leading invoked state = [.object reference] ∧
      reference.ident = state.nextObject ∧ scope.context = some reference.classId ∧
      delegate.member.params = .ofClass reference.classId :: delegate.ownParams ∧
      reference.context = some ⟨invoked, delegate.dispatched + 1⟩ := by
  have asks := keeps.asks.symm.trans takes
  rw [asksForContext] at asks
  split at asks
  · rename_i context first contextEq headEq
    obtain rfl : first = context := of_decide_eq_true asks
    obtain ⟨rest, paramsEq⟩ := List.head?_eq_some_iff.mp headEq
    refine ⟨⟨state.nextObject, first, some ⟨invoked, delegate.dispatched + 1⟩⟩, ?_, rfl,
      contextEq, ?_, rfl⟩
    · rw [leading, keeps.within, contextEq]
      exact if_pos takes
    · rw [ownParams, if_pos takes, paramsEq, List.tail_cons]
  · cases asks

theorem leading_of_plain (takes : delegate.takesContext = false) (invoked : String)
    (state : RunState) : delegate.leading invoked state = [] := by
  rw [leading]
  split <;> simp [takes]

/-- A context that goes before the arguments binds to the first parameter. -/
theorem leading_binds {scope : Scope} {handler : Value} (keeps : Keeps scope handler delegate)
    (takes : delegate.takesContext = true) (invoked : String) (state : RunState) :
    ∃ first context, delegate.member.params = first :: delegate.ownParams ∧
      delegate.leading invoked state = [context] ∧
      scope.store.bindValue first context = some context := by
  obtain ⟨reference, leads, _, _, paramsEq, _⟩ := leading_of_takes keeps takes invoked state
  exact ⟨_, _, paramsEq, leads, Store.bindValue_object _ reference rfl⟩

theorem bindArguments_leading {scope : Scope} {handler : Value}
    (keeps : Keeps scope handler delegate) (invoked : String) (args : List Value)
    (state : RunState) :
    scope.store.bindArguments delegate.member.params (delegate.leading invoked state ++ args) =
      ((scope.store.bindArguments delegate.ownParams args).map
        (delegate.leading invoked state ++ ·)).mapError
          (BindingFault.behind (delegate.leading invoked state).length) := by
  cases takes : delegate.takesContext with
  | true =>
      obtain ⟨first, context, paramsEq, leadingEq, binds⟩ :=
        leading_binds keeps takes invoked state
      rw [paramsEq, leadingEq, List.singleton_append, Store.bindArguments_cons binds]
      rfl
  | false =>
      rw [leading_of_plain takes, ownParams, takes, if_neg Bool.false_ne_true, List.nil_append]
      cases scope.store.bindArguments delegate.member.params args with
      | error reason => simp [Except.map]
      | ok values => simp [Except.map]

/-! ## Ends of a dispatched call -/

/-- How a dispatched call ends, and which runs it logs. -/
inductive Ends (delegate : Delegate) (invoked : String) (args : List Value) (state : RunState) :
    Except CallFailure Value → List CallRecord → Prop where
  | denied (closed : delegate.scope.grants delegate.member state = false) :
      Ends delegate invoked args state
        (.error (.refused (.accessDenied (delegate.scope.qualifiedSignature delegate.member)))) []
  /-- The reason counts a context that went before the arguments. -/
  | unbound {reason : BindingFault} {before : RunState}
      (granted : delegate.scope.grants delegate.member state = true)
      (failed : delegate.scope.store.bindArguments delegate.ownParams args = .error reason) :
      Ends delegate invoked args state
        (.error (.refused (delegate.scope.bindingFailure delegate.member
          (reason.behind (delegate.leading invoked state).length) before).1)) []
  | bodiless {values : List Value} {before : RunState}
      (granted : delegate.scope.grants delegate.member state = true)
      (bound : delegate.scope.store.bindArguments delegate.ownParams args = .ok values)
      (none : delegate.member.body = none) :
      Ends delegate invoked args state
        (.error (.raised (delegate.scope.abstractFailure delegate.member before).1 .error)) []
  /-- The body sees the counters as they stood before the call. -/
  | ran {values : List Value} {body : Body} {before : RunState}
      (granted : delegate.scope.grants delegate.member state = true)
      (bound : delegate.scope.store.bindArguments delegate.ownParams args = .ok values)
      (runs : delegate.member.body = some body) (same : before.tallies = state.tallies) :
      Ends delegate invoked args state
        ((body.run (some delegate.handler) (delegate.leading invoked state ++ values)
          before).1.mapError fun thrown =>
            .raised thrown (delegate.scope.store.throwableKind thrown.classId))
        [⟨delegate.member, some delegate.handler, delegate.leading invoked state ++ values⟩]

theorem dispatch_calls (delegate : Delegate) (invoked : String) (args : List Value)
    (state : RunState) :
    ∃ start, state.Quiet start ∧
      (delegate.dispatch invoked args state).1 =
        (delegate.scope.call (some delegate.handler) delegate.member
          (delegate.leading invoked state ++ args) start).1 ∧
      (delegate.dispatch invoked args state).2.2 =
        (delegate.scope.call (some delegate.handler) delegate.member
          (delegate.leading invoked state ++ args) start).2 := by
  have quiet := delegate.quiet_handlerArguments invoked args (delegate.dispatched + 1) state
  rw [← args_handlerArguments invoked args state]
  exact ⟨_, quiet.log _, rfl, rfl⟩

/-- Where the handler is the receiver and nothing overrides its member, the
caller's arguments decide whether a call binds. -/
theorem bindCall_leading {scope : Scope} {handler : Value} {start : ClassId}
    (keeps : Keeps scope handler delegate)
    (receives : scope.store.bindReceiver (some handler) delegate.member =
      .ok (some ⟨handler, start⟩))
    (selects : scope.store.selectOverride start delegate.member = delegate.member)
    (invoked : String) (args : List Value) (state : RunState) :
    scope.store.bindCall (some handler) delegate.member
        (delegate.leading invoked state ++ args) =
      ((scope.store.bindArguments delegate.ownParams args).map fun values =>
        ⟨some ⟨handler, start⟩, delegate.leading invoked state ++ values,
          delegate.member⟩).mapError
            (BindingFault.behind (delegate.leading invoked state).length) := by
  have leads := bindArguments_leading keeps invoked args state
  cases own : scope.store.bindArguments delegate.ownParams args with
  | error reason =>
      rw [own] at leads
      exact (Store.bindCall_eq_error_iff receives).mpr leads
  | ok values =>
      rw [own] at leads
      exact Store.bindCall_eq_ok_iff.mpr ⟨receives, leads, selects.symm⟩

theorem ends_call {scope : Scope} {handler : Value} {start : ClassId}
    (keeps : Keeps scope handler delegate)
    (receives : scope.store.bindReceiver (some handler) delegate.member =
      .ok (some ⟨handler, start⟩))
    (selects : scope.store.selectOverride start delegate.member = delegate.member)
    (invoked : String) (args : List Value) {state before : RunState}
    (quiet : state.Quiet before) :
    ∃ runs, delegate.Ends invoked args state
        (scope.call (some handler) delegate.member (delegate.leading invoked state ++ args)
          before).1 runs ∧
      (scope.call (some handler) delegate.member (delegate.leading invoked state ++ args)
        before).2.calls = state.calls ++ runs := by
  have binding := bindCall_leading keeps receives selects invoked args state
  have ends := scope.call_ends (some handler) delegate.member
    (delegate.leading invoked state ++ args) before
  generalize scope.call (some handler) delegate.member
    (delegate.leading invoked state ++ args) before = result at ends ⊢
  obtain ⟨rfl, rfl, _, _⟩ := keeps
  have same : delegate.scope.grants delegate.member before =
      delegate.scope.grants delegate.member state := Scope.grants_of_quiet quiet
  cases own : delegate.scope.store.bindArguments delegate.ownParams args with
  | error reason =>
      rw [own] at binding
      cases ends with
      | denied closed => exact ⟨[], .denied (same.symm.trans closed), by simp [quiet.calls]⟩
      | unbound granted failed =>
          cases binding.symm.trans failed
          refine ⟨[], .unbound (same.symm.trans granted) own, ?_⟩
          simp [Scope.bindingFailure, RunState.newThrowable, quiet.calls]
      | bodiless _ binds _ => cases binding.symm.trans binds
      | ran _ binds _ => cases binding.symm.trans binds
  | ok values =>
      rw [own] at binding
      cases ends with
      | denied closed => exact ⟨[], .denied (same.symm.trans closed), by simp [quiet.calls]⟩
      | unbound _ failed => cases binding.symm.trans failed
      | bodiless granted binds none =>
          cases binding.symm.trans binds
          refine ⟨[], .bodiless (same.symm.trans granted) own none, ?_⟩
          simp [Scope.abstractFailure, RunState.newThrowable, quiet.calls]
      | ran granted binds runs =>
          cases binding.symm.trans binds
          refine ⟨_, .ran (same.symm.trans granted) own runs
            (Scope.tallies_ensureAccessible.trans quiet.tallies), ?_⟩
          simp [RunState.recordCall, quiet.calls, Store.BoundCall.record]

/-- A delegate calls the member that was found for its handler: the handler is
bound as its receiver, nothing overrides it, and a context binds to the parameter
that asks for it. -/
theorem dispatch_ends {scope : Scope} {handler : Value} (reached : scope.store.Reachable)
    (serves : Serves scope handler delegate) (invoked : String) (args : List Value)
    (state : RunState) :
    Keeps scope handler delegate ∧
      (∃ start, handler.classId? = some start ∧
        scope.store.bindReceiver (some handler) delegate.member = .ok (some ⟨handler, start⟩) ∧
        scope.store.selectOverride start delegate.member = delegate.member) ∧
      (delegate.takesContext = true → ∃ first context,
        delegate.member.params = first :: delegate.ownParams ∧
          delegate.leading invoked state = [context] ∧
          scope.store.bindValue first context = some context) ∧
      ∃ runs, delegate.Ends invoked args state (delegate.dispatch invoked args state).1 runs ∧
        (delegate.dispatch invoked args state).2.2.calls = state.calls ++ runs := by
  have keeps := serves.keeps
  obtain ⟨start, id, runtime, first, handlers⟩ := Scope.findHandler_eq_ok_iff.mp keeps.found
  have handles : delegate.member ∈ scope.handlersIn id := by
    rw [handlers]
    exact List.mem_singleton_self _
  have receives := Scope.bindReceiver_of_handler reached runtime first handles
  have selects := Scope.selectOverride_of_handler reached first handles
  refine ⟨keeps, ⟨start, runtime, receives, selects⟩,
    fun takes => leading_binds keeps takes invoked state, ?_⟩
  obtain ⟨before, quiet, outcomeEq, stateEq⟩ := dispatch_calls delegate invoked args state
  rw [outcomeEq, stateEq, keeps.holds, keeps.within]
  exact ends_call keeps receives selects invoked args quiet

end Delegate

/-! ## An earphone

It hears what a listener hears; its own member of the same name is private. -/

namespace Earphone

open Store

def listener : ClassId := ⟨26⟩
def earphone : ClassId := ⟨27⟩

def hears (visibility : Visibility) : MemberDef :=
  { name := "hear", params := [.ofClass .invocation, .ofClass .object], returns := .void,
    isStatic := false, visibility, body := some (.tally "heard") }

def classes : List ClassDef :=
  [{ platformClass "Listener" (some .object) [] with members := [hears .packageAccess] },
    { platformClass "Earphone" (some listener) [] with members := [hears .privateAccess] }]

def scope : Scope := .ofStore (platform.addAll classes) []

theorem scope_reachable : scope.store.Reachable := by
  simp only [scope, Scope.ofStore]
  exact Reachable.platform.addAll classes

def worn : Value := .object ⟨0, earphone, none⟩

/-- The listener's member runs on the context and the sound. -/
theorem dispatch_worn :
    scope.store.Reachable ∧
      ∃ delegate, Delegate.Serves scope worn delegate ∧ delegate.takesContext = true ∧
        delegate.member.declaringClass = listener ∧
        ∃ run, delegate.Ends "ring()" [.text "ding"] .initial
            (delegate.dispatch "ring()" [.text "ding"] .initial).1 [run] ∧
          (delegate.dispatch "ring()" [.text "ding"] .initial).2.2.calls = [run] := by
  have computed :
      (match Delegate.ofHandler scope worn with
        | .error _ => false
        | .ok delegate =>
          delegate.takesContext && delegate.member.declaringClass = listener &&
            (delegate.dispatch "ring()" [.text "ding"] .initial).2.2.calls.length = 1) = true := by
    decide +kernel
  split at computed
  · cases computed
  · rename_i delegate found
    simp only [Bool.and_eq_true, decide_eq_true_eq] at computed
    obtain ⟨⟨takes, declared⟩, once⟩ := computed
    have serves := Delegate.Serves.made found
    obtain ⟨_, _, _, runs, ends, logged⟩ :=
      Delegate.dispatch_ends scope_reachable serves "ring()" [.text "ding"] .initial
    obtain ⟨run, callsEq⟩ := List.length_eq_one_iff.mp once
    rw [callsEq] at logged
    have runsEq : runs = [run] := logged.symm
    exact ⟨scope_reachable, delegate, serves, takes, declared, run, runsEq ▸ ends, callsEq⟩

end Earphone

end MemberDispatch
