import MemberDispatch.Proofs.Invoke.Binding
import MemberDispatch.Proofs.Invoke.Entry
import MemberDispatch.Proofs.Invoke.Override

/-!
# Bodies run on what their parameters ask for

Checks are made against the member that is called, but the member that runs may
be another.  Still every body that runs, whichever way the call came in, has the
name and the parameters that were called, gets an argument of its type for each
of them, and gets a receiver exactly if it belongs to instances: the target, an
instance of the class that declares the body.
-/

set_option autoImplicit false

namespace MemberDispatch

/-- A run that keeps to the types of the member that was called. -/
structure WellTyped (store : Store) (request : Request) (run : CallRecord) : Prop where
  named : run.member.name = request.member.name
  params : run.member.params = request.member.params
  counted : run.args.length = run.member.params.length
  received : ∀ (position : Nat) (param : Ty), run.member.params[position]? = some param →
    ∃ argument value, request.args[position]? = some argument ∧
      run.args[position]? = some value ∧ store.Received param argument value
  noVoid : ∀ value ∈ run.args, value ≠ .void
  sameSort : run.member.isStatic = request.member.isStatic
  onClass : run.member.isStatic = true → run.receiver = none
  onInstances : run.member.isStatic = false →
    ∃ value id, request.target = some value ∧ run.receiver = some value ∧
      value.classId? = some id ∧ store.isSubclass id run.member.declaringClass = true

/-! ## Bound calls -/

theorem Store.Received.ne_void {store : Store} {param : Ty} {argument value : Value}
    (received : store.Received param argument value) : value ≠ .void := by
  rintro rfl
  cases received with
  | widened _ kindExact => simp [Value.primitive?] at kindExact
  | unchanged _ runtime _ => simp [Value.classId?] at runtime

theorem Store.selected_of_bindCall {store : Store} {target : Option Value} {member : Member}
    {args : List Value} {bound : Store.BoundCall}
    (binds : store.bindCall target member args = .ok bound) :
    bound.implementation.name = member.name ∧ bound.implementation.params = member.params := by
  rw [(bindCall_eq_ok_iff.mp binds).2.2]
  cases bound.receiver with
  | none => exact ⟨rfl, rfl⟩
  | some receiver => exact ⟨selectOverride_name, selectOverride_params⟩

theorem wellTyped_of_bindCall {store : Store} (reached : store.Reachable) {request : Request}
    {bound : Store.BoundCall}
    (binds : store.bindCall request.target request.member request.args = .ok bound) :
    WellTyped store request bound.record := by
  obtain ⟨named, params⟩ := Store.selected_of_bindCall binds
  obtain ⟨receiverEq, argsEq, chosen⟩ := Store.bindCall_eq_ok_iff.mp binds
  obtain ⟨counted, received⟩ := Store.received_of_bindArguments argsEq
  rw [← params] at counted received
  have noVoid : ∀ value ∈ bound.args, value ≠ .void := by
    intro value member
    obtain ⟨position, within, rfl⟩ := List.getElem_of_mem member
    obtain ⟨argument, value, _, valueEq, typed⟩ :=
      received position _ (List.getElem?_eq_getElem (counted ▸ within))
    rw [List.getElem?_eq_getElem within, Option.some.injEq] at valueEq
    exact valueEq ▸ typed.ne_void
  cases sort : request.member.isStatic with
  | true =>
      rw [Store.bindReceiver_of_static sort, Except.ok.injEq] at receiverEq
      rw [← receiverEq] at chosen
      have static : bound.implementation.isStatic = true := chosen ▸ sort
      exact
        { named, params, counted, received, noVoid
          sameSort := static.trans sort.symm
          onClass := fun _ => by simp [Store.BoundCall.record, ← receiverEq]
          onInstances := fun instances => absurd (static.symm.trans instances) (by simp) }
  | false =>
      obtain ⟨value, id, targetEq, runtime, above, boundEq⟩ :=
        (Store.bindReceiver_eq_ok_iff sort).mp receiverEq
      rw [boundEq] at chosen
      have instances : bound.implementation.isStatic = false :=
        chosen ▸ Store.selectOverride_onInstances sort
      exact
        { named, params, counted, received, noVoid
          sameSort := instances.trans sort.symm
          onClass := fun static => absurd (instances.symm.trans static) (by simp)
          onInstances := fun _ => ⟨value, id, targetEq, by simp [Store.BoundCall.record, boundEq],
            runtime, by
              rw [show bound.record.member = _ from chosen]
              exact Store.isSubclass_selectOverride reached above⟩ }

theorem Scope.call_wellTyped {scope : Scope} (reached : scope.store.Reachable)
    (request : Request) (state : RunState) :
    (scope.call request.target request.member request.args state).2.calls = state.calls ∨
      ∃ run, WellTyped scope.store request run ∧
        Ran state (scope.call request.target request.member request.args state).2 run := by
  have ends := scope.call_ends request.target request.member request.args state
  generalize scope.call request.target request.member request.args state = result at ends ⊢
  cases ends with
  | denied closed => exact .inl rfl
  | unbound granted failed => exact .inl calls_ensureAccessible
  | bodiless granted binds none => exact .inl calls_ensureAccessible
  | @ran bound body granted binds runs =>
      refine .inr ⟨bound.record, wellTyped_of_bindCall reached binds, ?_, ?_⟩
      · simp [RunState.recordCall]
      · exact ⟨_, _, [], runs, calls_ensureAccessible, (RunState.log_nil _).symm⟩

/-! ## The ways in -/

namespace Entry

variable {scope : Scope}

/-- The state after one call, with nothing but events before and after it. -/
def Answers (scope : Scope) (request : Request) (before after : RunState) : Prop :=
  ∃ (start : RunState) (events : List Event), start.calls = before.calls ∧
    after = (scope.call request.target request.member request.args start).2.log events

theorem Follows.answers {request : Request} {before after : RunState} {fault : Option Fault}
    (follows : Follows scope request before fault after) :
    Answers scope request before after := by
  obtain ⟨start, events, quiet, _, ends⟩ := follows
  exact ⟨start, events, quiet.calls, ends⟩

/-- Every entry answers what it asks for, or it asks for nothing and runs
nothing. -/
theorem run_answers (entry : Entry scope) (state : RunState) :
    (entry.request? state = none ∧ (entry.run state).calls = state.calls) ∨
      ∃ request, entry.request? state = some request ∧
        Answers scope request state (entry.run state) := by
  rcases entry.run_follows state with ⟨nothing, quiet⟩ | ⟨request, asked, follows⟩
  · exact .inl ⟨nothing, quiet.calls⟩
  · exact .inr ⟨request, asked, follows.answers⟩

theorem Answers.wellTyped (reached : scope.store.Reachable) {request : Request}
    {before after : RunState} (answers : Answers scope request before after) :
    after.calls = before.calls ∨
      ∃ run, WellTyped scope.store request run ∧ Ran before after run := by
  obtain ⟨start, events, quiet, rfl⟩ := answers
  rcases Scope.call_wellTyped reached request start with same | ⟨record, typed, logged, executed⟩
  · exact .inl (same.trans quiet)
  · obtain ⟨body, begun, earlier, bodyEq, begunQuiet, ends⟩ := executed
    refine .inr ⟨record, typed, ?_, body, begun, earlier ++ events, bodyEq, ?_, ?_⟩
    · rw [RunState.calls_log, logged, quiet]
    · exact begunQuiet.trans quiet
    · rw [ends]
      simp [RunState.log]

/-- Whichever way a call comes in, it runs nothing, or it runs one body, on a
receiver and arguments that keep to the types of the member it asked for. -/
theorem run_wellTyped (reached : scope.store.Reachable) (entry : Entry scope)
    (state : RunState) :
    (entry.run state).calls = state.calls ∨
      ∃ request record, entry.request? state = some request ∧
        WellTyped scope.store request record ∧ Ran state (entry.run state) record := by
  rcases entry.run_answers state with ⟨_, quiet⟩ | ⟨request, asked, answers⟩
  · exact .inl quiet
  · rcases answers.wellTyped reached with quiet | ⟨record, typed, ran⟩
    · exact .inl quiet
    · exact .inr ⟨request, record, asked, typed, ran⟩

/-! ## Sessions -/

def runAll (entries : List (Entry scope)) (state : RunState) : RunState :=
  entries.foldl (fun state entry => entry.run state) state

/-- A run that is well typed for what one of the entries asked. -/
def Justifies (entries : List (Entry scope)) (record : CallRecord) : Prop :=
  ∃ entry ∈ entries, ∃ before request,
    entry.request? before = some request ∧ WellTyped scope.store request record

theorem Justifies.cons {entries : List (Entry scope)} {record : CallRecord}
    (justified : Justifies entries record) (entry : Entry scope) :
    Justifies (entry :: entries) record := by
  obtain ⟨origin, member, asked⟩ := justified
  exact ⟨origin, List.mem_cons_of_mem entry member, asked⟩

/-- A session adds to the log of runs only what its entries justify. -/
theorem runAll_wellTyped (reached : scope.store.Reachable) (entries : List (Entry scope))
    (state : RunState) :
    ∃ records, (runAll entries state).calls = state.calls ++ records ∧
      ∀ record ∈ records, Justifies entries record := by
  induction entries generalizing state with
  | nil => exact ⟨[], by simp [runAll], by simp⟩
  | cons entry rest ih =>
      obtain ⟨later, logged, justified⟩ := ih (entry.run state)
      have quietStep (quiet : (entry.run state).calls = state.calls) :
          ∃ records, (runAll (entry :: rest) state).calls = state.calls ++ records ∧
            ∀ record ∈ records, Justifies (entry :: rest) record := by
        refine ⟨later, ?_, fun record member => (justified record member).cons entry⟩
        rw [← quiet]
        exact logged
      rcases entry.run_answers state with ⟨_, quiet⟩ | ⟨request, asked, answers⟩
      · exact quietStep quiet
      · rcases answers.wellTyped reached with quiet | ⟨record, typed, ran⟩
        · exact quietStep quiet
        · refine ⟨record :: later, ?_, ?_⟩
          · rw [List.append_cons, ← ran.logged]
            exact logged
          · intro other member
            rcases List.mem_cons.mp member with rfl | laterMember
            · exact ⟨entry, List.mem_cons_self, state, request, asked, typed⟩
            · exact (justified other laterMember).cons entry

end Entry

/-! ## On the small hierarchy -/

namespace Gallery

/-- A poster is asked for the canvas's way of drawing circles, with a disc. -/
def drawDisc : Entry scope :=
  .invokeSpecified canvas (some (.object ⟨0, poster, none⟩)) "draw" [.ofClass circle]
    [.object ⟨1, disc, none⟩]

/-- The canvas's member is called, and the poster's runs. -/
theorem drawDisc_wellTyped :
    scope.store.Reachable ∧
      ∃ request record, drawDisc.request? .initial = some request ∧
        request.member.declaringClass = canvas ∧ record.member.declaringClass = poster ∧
        WellTyped scope.store request record ∧
        Ran .initial (drawDisc.run .initial) record := by
  have computed :
      (drawDisc.request? .initial).map (fun request => request.member.declaringClass) =
          some canvas ∧
        (drawDisc.run .initial).calls.map (fun record => record.member.declaringClass) =
          [poster] := by
    decide +kernel
  obtain ⟨asked, logged⟩ := computed
  rcases Entry.run_wellTyped scope_reachable drawDisc .initial with
    quiet | ⟨request, record, requestEq, typed, ran⟩
  · rw [quiet] at logged
    cases logged
  · rw [requestEq] at asked
    rw [ran.logged] at logged
    exact ⟨scope_reachable, request, record, requestEq, Option.some.inj asked,
      (List.cons.inj logged).1, typed, ran⟩

end Gallery

end MemberDispatch
