import MemberDispatch.Proofs.Invoke.Entry

/-!
# What a call opens and what it runs

A call opens the member that it was made for, unless the member's class is
restricted; the override that runs in its place stays as it is.  It runs a body
exactly if it passes the access check, is bound, and selects a member with a
body.
-/

set_option autoImplicit false

namespace MemberDispatch

/-- The class that declares the member keeps its members closed. -/
def Store.Restricts (store : Store) (member : Member) : Prop :=
  ∃ info, store.class? member.declaringClass = some info ∧ info.restricted = true

def Store.BoundCall.due? (bound : Store.BoundCall) : Option CallRecord :=
  bound.implementation.body.map fun _ => bound.record

theorem RunState.accessible_relax_iff (state : RunState) {member handle : Member}
    (identified : handle.serial = member.serial → handle = member) :
    (state.relax member).2.accessible handle = true ↔
      state.accessible handle = true ∨ handle = member := by
  by_cases same : handle = member
  · subst same
    simp [accessible_relax]
  · have other : handle.serial ≠ member.serial := fun serials => same (identified serials)
    rw [relax]
    split
    · simp [same]
    · simp [accessible, same, other]

namespace Scope

variable {scope : Scope} {member handle : Member} {state : RunState}

/-! ## Opening -/

theorem forbidsAccess_iff : scope.forbidsAccess member = true ↔ scope.store.Restricts member := by
  rw [forbidsAccess, Store.Restricts]
  cases scope.store.class? member.declaringClass <;> simp

/-- The check opens no handle but its own. -/
theorem accessible_ensureAccessible
    (identified : handle.serial = member.serial → handle = member) :
    (scope.ensureAccessible member state).2.accessible handle = true ↔
      state.accessible handle = true ∨ member = handle ∧ ¬ scope.store.Restricts handle := by
  rw [← forbidsAccess_iff, ensureAccessible]
  split
  · rename_i already
    constructor
    · exact .inl
    · rintro (opened | ⟨rfl, _⟩)
      · exact opened
      · exact already
  · split
    · rename_i forbidden
      constructor
      · exact .inl
      · rintro (opened | ⟨rfl, permitted⟩)
        · exact opened
        · exact absurd forbidden permitted
    · rename_i permitted
      rw [RunState.accessible_log, state.accessible_relax_iff identified]
      apply or_congr_right
      constructor
      · rintro rfl
        exact ⟨rfl, permitted⟩
      · exact fun own => own.1.symm

theorem relaxed_ensureAccessible :
    (scope.ensureAccessible member state).2.relaxed = state.relaxed ∨
      (scope.ensureAccessible member state).2.relaxed = member.serial :: state.relaxed := by
  rw [ensureAccessible, RunState.relax]
  split
  · exact .inl rfl
  · split
    · exact .inl rfl
    · exact .inr rfl

theorem relaxed_call (target : Option Value) (args : List Value) :
    (scope.call target member args state).2.relaxed =
      (scope.ensureAccessible member state).2.relaxed := by
  have ends := scope.call_ends target member args state
  generalize scope.call target member args state = result at ends ⊢
  cases ends with
  | denied closed => rw [ensureAccessible_of_closed closed]
  | unbound _ _ => rfl
  | bodiless _ _ _ => rfl
  | ran _ _ _ => exact Body.relaxed_run _ _ _ _

/-! ## Running -/

/-- A request as it is bound, if it passes the access check and binding. -/
def bound? (scope : Scope) (request : Request) (state : RunState) : Option Store.BoundCall :=
  if scope.grants request.member state then
    (scope.store.bindCall request.target request.member request.args).toOption
  else none

theorem bound?_eq_some_iff {request : Request} {bound : Store.BoundCall} :
    scope.bound? request state = some bound ↔
      scope.grants request.member state = true ∧
        scope.store.bindCall request.target request.member request.args = .ok bound := by
  rw [bound?]
  cases scope.store.bindCall request.target request.member request.args <;>
    simp [Except.toOption]

/-- Between two states the call that was bound ran its body, once, or nothing was
bound that has a body and no body ran. -/
structure RunsDue (scope : Scope) (bound : Option Store.BoundCall) (before : RunState)
    (fault : Option Fault) (after : RunState) : Prop where
  logged : after.calls = before.calls ++ (bound.bind Store.BoundCall.due?).toList
  ran : ∀ call body, bound = some call → call.implementation.body = some body →
    ∃ (start : RunState) (events : List Event),
      start.calls = before.calls ∧ start.tallies = before.tallies ∧
        after = ((body.run call.record.receiver call.record.args
          (start.recordCall call.record)).2).log events
  idle : bound.bind Store.BoundCall.due? = none → after.tallies = before.tallies
  /-- Where the dispatcher itself fails, nothing has run. -/
  engine : ∀ given, fault = some given → given.thrown? = none →
    bound.bind Store.BoundCall.due? = none
  bodiless : ∀ call, bound = some call → call.implementation.body = none →
    ∃ opened, fault = some (.targetError (scope.abstractFailure call.implementation opened).1)

theorem runsDue_none {before after : RunState} (calls : after.calls = before.calls)
    (tallies : after.tallies = before.tallies) (fault : Option Fault) :
    scope.RunsDue none before fault after where
  logged := by simp [calls]
  ran := by simp
  idle _ := tallies
  engine := by simp
  bodiless := by simp

theorem RunsDue.around {bound : Option Store.BoundCall} {before start after : RunState}
    {fault : Option Fault} (runs : scope.RunsDue bound start fault after)
    (quiet : before.Quiet start) (events : List Event) :
    scope.RunsDue bound before fault (after.log events) where
  logged := by rw [RunState.calls_log, runs.logged, quiet.calls]
  ran := by
    intro call body boundEq bodyEq
    obtain ⟨begun, earlier, calls, tallies, ends⟩ := runs.ran call body boundEq bodyEq
    refine ⟨begun, earlier ++ events, calls.trans quiet.calls, tallies.trans quiet.tallies, ?_⟩
    simp [ends, RunState.log]
  idle nothing := (runs.idle nothing).trans quiet.tallies
  engine := runs.engine
  bodiless := runs.bodiless

theorem runsDue_call (request : Request) (state : RunState) :
    scope.RunsDue (scope.bound? request state) state
      (failure? ((scope.call request.target request.member request.args state).1.mapError
        CallFailure.wrapped))
      (scope.call request.target request.member request.args state).2 := by
  have ends := scope.call_ends request.target request.member request.args state
  generalize scope.call request.target request.member request.args state = result at ends ⊢
  cases ends with
  | denied closed =>
      rw [bound?, if_neg (by simp [closed])]
      exact runsDue_none rfl rfl _
  | unbound granted failed =>
      rw [bound?, if_pos granted, failed, Except.toOption]
      refine runsDue_none ?_ ?_ _
      · exact calls_ensureAccessible
      · exact tallies_ensureAccessible
  | @bodiless bound granted binds none =>
      rw [bound?, if_pos granted, binds]
      have idle : bound.due? = Option.none := by rw [Store.BoundCall.due?, none, Option.map_none]
      exact
        { logged := by simp [Except.toOption, idle, abstractFailure, RunState.newThrowable]
          ran := by
            rintro _ body ⟨rfl⟩ some
            cases none.symm.trans some
          idle := fun _ => tallies_ensureAccessible
          engine := fun _ _ _ => idle
          bodiless := by
            rintro _ ⟨rfl⟩ _
            exact ⟨_, rfl⟩ }
  | @ran bound body granted binds runs =>
      rw [bound?, if_pos granted, binds]
      have due : bound.due? = some bound.record := by rw [Store.BoundCall.due?, runs, Option.map_some]
      exact
        { logged := by simp [Except.toOption, due, RunState.recordCall]
          ran := by
            rintro _ other ⟨rfl⟩ some
            cases runs.symm.trans some
            exact ⟨_, [], calls_ensureAccessible, tallies_ensureAccessible,
              (RunState.log_nil _).symm⟩
          idle := fun nothing => by cases due.symm.trans nothing
          engine := by
            intro given failed internal
            generalize (Body.run _ _ _ _).1 = outcome at failed
            cases outcome with
            | ok value => cases failed
            | error thrown =>
                -- What a body raises is carried along, so the failure is its own.
                cases failed
                exact absurd ((Fault.thrown?_ofRaised _ _).symm.trans internal) (by simp)
          bodiless := by
            rintro _ ⟨rfl⟩ none
            cases none.symm.trans runs }

end Scope

namespace Entry

variable {scope : Scope}

/-! ## Entries -/

def bound? (entry : Entry scope) (state : RunState) : Option Store.BoundCall :=
  (entry.request? state).bind fun request => scope.bound? request state

theorem runsDue_run (entry : Entry scope) (state : RunState) :
    scope.RunsDue (entry.bound? state) state (entry.fault? state) (entry.run state) := by
  rcases entry.run_follows state with ⟨nothing, quiet⟩ | ⟨request, asked, follows⟩
  · rw [bound?, nothing]
    exact Scope.runsDue_none quiet.calls quiet.tallies _
  · obtain ⟨start, events, quiet, fails, ends⟩ := follows
    -- Binding reads the flags only, and events change none.
    have same : scope.bound? request start = scope.bound? request state := by
      rw [Scope.bound?, Scope.bound?, Scope.grants_of_quiet quiet]
    rw [bound?, asked, Option.bind_some, ← same, fails, ends]
    exact (Scope.runsDue_call request start).around quiet events

/-- An entry opens the member that it calls, and no other. -/
theorem accessible_run (entry : Entry scope) (state : RunState) {handle : Member}
    (identified : ∀ request, entry.request? state = some request →
      handle.serial = request.member.serial → handle = request.member) :
    (entry.run state).accessible handle = true ↔
      state.accessible handle = true ∨
        (entry.request? state).map Request.member = some handle ∧
          ¬ scope.store.Restricts handle := by
  rcases entry.run_follows state with ⟨nothing, quiet⟩ | ⟨request, asked, follows⟩
  · rw [quiet.accessible, nothing]
    simp
  · obtain ⟨start, events, quiet, _, ends⟩ := follows
    have opened : (entry.run state).accessible handle =
        (scope.ensureAccessible request.member start).2.accessible handle := by
      rw [ends, RunState.accessible_log, RunState.accessible, RunState.accessible,
        Scope.relaxed_call]
    rw [opened, Scope.accessible_ensureAccessible (identified request asked), quiet.accessible,
      asked, Option.map_some, Option.some.injEq]

/-- Whatever the target and the arguments, an entry to a closed member is denied
access and leaves all flags, counters and runs as they are. -/
theorem denied_run (entry : Entry scope) (state : RunState) {member : Member}
    (asks : (entry.request? state).map Request.member = some member)
    (closed : scope.grants member state = false) :
    entry.fault? state = some (.accessDenied (scope.qualifiedSignature member)) ∧
      state.Quiet (entry.run state) := by
  obtain ⟨request, asked, rfl⟩ := Option.map_eq_some_iff.mp asks
  rcases entry.run_follows state with ⟨nothing, _⟩ | ⟨other, otherAsked, follows⟩
  · cases asked.symm.trans nothing
  · cases asked.symm.trans otherAsked
    obtain ⟨start, events, quiet, fails, ends⟩ := follows
    have denied : scope.call request.target request.member request.args start =
        (.error (.refused (.accessDenied (scope.qualifiedSignature request.member))), start) := by
      rw [Scope.call, Scope.ensureAccessible_of_closed ((Scope.grants_of_quiet quiet).trans closed)]
    rw [fails, ends, denied]
    exact ⟨rfl, quiet.log events⟩

end Entry

end MemberDispatch
