import MemberDispatch.Proofs.Invoke.Delegate
import MemberDispatch.Proofs.Invoke.Session

/-!
# The calls that a delegate counts

A delegate takes the next number for a call before anything can fail, so the
numbers of its calls are their positions, whatever becomes of the calls and
whatever happens between them.  A context carries the number of the one call
that it was made for; its object number was never used before, because nothing
that is done over a store gives one back.
-/

set_option autoImplicit false

namespace MemberDispatch

/-! ## Numbers for objects -/

@[simp] theorem Body.nextObject_run (body : Body) (receiver : Option Value) (args : List Value)
    (state : RunState) : (body.run receiver args state).2.nextObject = state.nextObject := by
  cases body <;> rfl

@[simp] theorem RunState.nextObject_relax (state : RunState) (member : Member) :
    (state.relax member).2.nextObject = state.nextObject := by
  rw [RunState.relax]
  split <;> rfl

@[simp] theorem RunState.nextObject_log (state : RunState) (events : List Event) :
    (state.log events).nextObject = state.nextObject := rfl

namespace Scope

variable {scope : Scope} {member : Member} {state : RunState}

@[simp] theorem nextObject_ensureAccessible :
    (scope.ensureAccessible member state).2.nextObject = state.nextObject := by
  rw [ensureAccessible]
  split
  · rfl
  · split
    · rfl
    · simp

@[simp] theorem nextObject_call (target : Option Value) (args : List Value) :
    (scope.call target member args state).2.nextObject = state.nextObject := by
  have ends := scope.call_ends target member args state
  generalize scope.call target member args state = result at ends ⊢
  cases ends with
  | denied closed => rfl
  | unbound granted failed => exact nextObject_ensureAccessible
  | bodiless granted binds none => exact nextObject_ensureAccessible
  | ran granted binds runs =>
      rw [Body.nextObject_run]
      exact nextObject_ensureAccessible

@[simp] theorem nextObject_invoke (target : Option Value) (args : List Value) :
    (scope.invoke target member args state).2.nextObject = state.nextObject := by
  obtain ⟨events, ends⟩ := scope.state_invoke target member args state
  rw [ends, RunState.nextObject_log, nextObject_call]

end Scope

namespace Delegate

variable {delegate : Delegate}

theorem nextObject_handlerArguments (invoked : String) (args : List Value) (state : RunState) :
    (delegate.handlerArguments invoked args (delegate.dispatched + 1) state).2.nextObject =
      state.nextObject + (delegate.leading invoked state).length := by
  rw [handlerArguments, leading]
  cases delegate.scope.context with
  | none => rfl
  | some context => cases delegate.takesContext <;> rfl

/-- A dispatched call uses up one number for each context that it makes. -/
theorem nextObject_dispatch (invoked : String) (args : List Value) (state : RunState) :
    (delegate.dispatch invoked args state).2.2.nextObject =
      state.nextObject + (delegate.leading invoked state).length := by
  simp only [dispatch, Scope.nextObject_call, RunState.nextObject_log,
    nextObject_handlerArguments]

end Delegate

theorem Entry.nextObject_le_run {scope : Scope} (entry : Entry scope) (state : RunState) :
    state.nextObject ≤ (entry.run state).nextObject := by
  cases entry with
  | call target member args => simp [run]
  | invoke target member args => simp [run]
  | callSpecified start target name types args =>
      rw [run, Scope.callSpecified]
      split <;> simp
  | invokeSpecified start target name types args =>
      rw [run, Scope.invokeSpecified]
      split <;> simp
  | invokeInstance start target name args =>
      rw [run, Scope.invokeInstance]
      split
      · exact Nat.le_refl _
      · dsimp only
        split <;> simp
  | invokeStatic start name args =>
      rw [run, Scope.invokeStatic]
      split
      · exact Nat.le_refl _
      · dsimp only
        split <;> simp
  | invokePublic start target name types args =>
      rw [run, Scope.invokePublic?]
      split <;> simp
  | dispatch delegate within invoked args =>
      rw [run, Delegate.nextObject_dispatch]
      exact Nat.le_add_right _ _

theorem Operation.nextObject_le_run {scope : Scope} (operation : Operation scope)
    (state : RunState) : state.nextObject ≤ (operation.run state).nextObject := by
  cases operation with
  | lookUp lookup => exact Nat.le_refl _
  | ensureAccessible member => exact Scope.nextObject_ensureAccessible.ge
  | enter entry => exact entry.nextObject_le_run state

/-! ## Turns -/

/-- A call that is dispatched, and what it finds. -/
structure Turn where
  delegate : Delegate
  invoked : String
  args : List Value
  before : RunState

namespace Turn

/-- The delegate once it has dispatched the call. -/
def next (turn : Turn) : Delegate :=
  (turn.delegate.dispatch turn.invoked turn.args turn.before).2.1

def outcome (turn : Turn) : Except CallFailure Value :=
  (turn.delegate.dispatch turn.invoked turn.args turn.before).1

def after (turn : Turn) : RunState :=
  (turn.delegate.dispatch turn.invoked turn.args turn.before).2.2

/-- The runs that the call adds to the log. -/
def runs (turn : Turn) : List CallRecord :=
  turn.after.calls.drop turn.before.calls.length

end Turn

/-- What is done while a delegate is in service: it dispatches a call, some
dispatcher over its store does anything else, or their host opens a member or
makes an object. -/
inductive Move (store : Store) where
  | dispatch (invoked : String) (args : List Value)
  | step (step : Step store)
  | relax (member : Member)
  | make (id : ClassId)

def Move.call? {store : Store} : Move store → Option (String × List Value)
  | dispatch invoked args => some (invoked, args)
  | step _ => none
  | relax _ => none
  | make _ => none

namespace Delegate

/-- The turns of a delegate, in their order. -/
def turns {store : Store} : Delegate → List (Move store) → RunState → List Turn
  | _, [], _ => []
  | delegate, .dispatch invoked args :: rest, state =>
    let turn : Turn := ⟨delegate, invoked, args, state⟩
    turn :: turns turn.next rest turn.after
  | delegate, .step step :: rest, state => turns delegate rest (step.operation.run state)
  | delegate, .relax member :: rest, state => turns delegate rest (state.relax member).2
  | delegate, .make id :: rest, state => turns delegate rest (state.newObject id none).2

variable {store : Store} {delegate : Delegate}

theorem calls_of_turns (moves : List (Move store)) (state : RunState) :
    (delegate.turns moves state).map (fun turn => (turn.invoked, turn.args)) =
      moves.filterMap Move.call? := by
  induction moves generalizing delegate state with
  | nil => rfl
  | cons move rest ih =>
      cases move with
      | dispatch invoked args =>
          rw [turns, List.map_cons, ih]
          rfl
      | step step =>
          rw [turns, ih, List.filterMap_cons_none rfl]
      | relax member =>
          rw [turns, ih, List.filterMap_cons_none rfl]
      | make id =>
          rw [turns, ih, List.filterMap_cons_none rfl]

/-- A delegate changes by its count alone, and by one with each turn. -/
theorem delegate_of_turn {moves : List (Move store)} {state : RunState} {index : Nat} {turn : Turn}
    (made : (delegate.turns moves state)[index]? = some turn) :
    turn.delegate = { delegate with dispatched := delegate.dispatched + index } := by
  induction moves generalizing delegate state index with
  | nil => simp [turns] at made
  | cons move rest ih =>
      cases move with
      | dispatch invoked args =>
          cases index with
          | zero =>
              cases Option.some.inj made
              rfl
          | succ index =>
              rw [ih made]
              simp [Turn.next, Delegate.dispatch, Nat.add_assoc, Nat.add_comm 1]
      | step step => exact ih made
      | relax member => exact ih made
      | make id => exact ih made

theorem nextObject_le_of_mem_turns {moves : List (Move store)} {state : RunState} {turn : Turn}
    (made : turn ∈ delegate.turns moves state) : state.nextObject ≤ turn.before.nextObject := by
  induction moves generalizing delegate state with
  | nil => cases made
  | cons move rest ih =>
      cases move with
      | dispatch invoked args =>
          rcases List.mem_cons.mp made with rfl | later
          · exact Nat.le_refl _
          · refine Nat.le_trans ?_ (ih later)
            rw [Turn.after, nextObject_dispatch]
            exact Nat.le_add_right _ _
      | step step => exact Nat.le_trans (step.operation.nextObject_le_run state) (ih made)
      | relax member => exact Nat.le_trans (state.nextObject_relax member).ge (ih made)
      | make id => exact Nat.le_trans (Nat.le_succ state.nextObject) (ih made)

/-- Each turn finds only numbers that the turns before it have left over. -/
theorem pairwise_turns (moves : List (Move store)) (state : RunState) :
    (delegate.turns moves state).Pairwise fun earlier later =>
      earlier.after.nextObject ≤ later.before.nextObject := by
  induction moves generalizing delegate state with
  | nil => exact .nil
  | cons move rest ih =>
      cases move with
      | dispatch invoked args => exact .cons (fun _ => nextObject_le_of_mem_turns) (ih _)
      | step step => exact ih _
      | relax member => exact ih _
      | make id => exact ih _

end Delegate

/-! ## What a turn runs -/

namespace Turn

/-- What the handler's body is given in the turn of a position, counted from
one. -/
inductive Gives (turn : Turn) (position : Nat) : List Value → Prop where
  | withContext {reference : ObjectRef} {own : List Ty} {values : List Value}
      (takes : turn.delegate.takesContext = true)
      (configured : turn.delegate.scope.context = some reference.classId)
      (asked : turn.delegate.member.params = .ofClass reference.classId :: own)
      (payload : reference.context = some ⟨turn.invoked, position⟩)
      (bound : turn.delegate.scope.store.bindArguments own turn.args = .ok values) :
      Gives turn position (.object reference :: values)
  | plain {values : List Value} (takes : turn.delegate.takesContext = false)
      (bound : turn.delegate.scope.store.bindArguments turn.delegate.member.params turn.args =
        .ok values) :
      Gives turn position values

variable {turn : Turn}

/-- The turn as one of the ways into a call. -/
def entry (turn : Turn) : Entry turn.delegate.scope :=
  .dispatch turn.delegate rfl turn.invoked turn.args

theorem runs_eq (turn : Turn) :
    turn.runs = ((turn.entry.bound? turn.before).bind Store.BoundCall.due?).toList := by
  have logged : turn.after.calls = turn.before.calls ++ _ :=
    (turn.entry.runsDue_run turn.before).logged
  rw [runs, logged, List.drop_left]

theorem calls_after (turn : Turn) : turn.after.calls = turn.before.calls ++ turn.runs := by
  rw [turn.runs_eq]
  exact (turn.entry.runsDue_run turn.before).logged

theorem length_runs_le_one (turn : Turn) : turn.runs.length ≤ 1 := by
  rw [turn.runs_eq]
  exact Option.length_toList_le

theorem due_of_mem_runs {run : CallRecord} (ran : run ∈ turn.runs) :
    ∃ bound body, turn.entry.bound? turn.before = some bound ∧
      bound.implementation.body = some body ∧ bound.record = run := by
  rw [turn.runs_eq, Option.mem_toList, Option.bind_eq_some_iff] at ran
  obtain ⟨bound, binds, due⟩ := ran
  obtain ⟨body, runs, recordEq⟩ := Option.map_eq_some_iff.mp due
  exact ⟨bound, body, binds, runs, recordEq⟩

theorem ran_of_mem_runs {run : CallRecord} (ran : run ∈ turn.runs) :
    Ran turn.before turn.after run := by
  obtain ⟨bound, body, binds, runs, rfl⟩ := due_of_mem_runs ran
  obtain ⟨start, events, calls, _, ends⟩ :=
    (turn.entry.runsDue_run turn.before).ran bound body binds runs
  have logged := turn.calls_after
  rw [turn.runs_eq, binds, Option.bind_some, Store.BoundCall.due?, runs] at logged
  exact ⟨logged, body, start, events, runs, calls, ends⟩

theorem bindCall_of_mem_runs {run : CallRecord} (ran : run ∈ turn.runs) :
    ∃ bound, bound.record = run ∧
      turn.delegate.scope.store.bindCall (some turn.delegate.handler) turn.delegate.member
        (turn.delegate.leading turn.invoked turn.before ++ turn.args) = .ok bound := by
  obtain ⟨bound, _, binds, _, recordEq⟩ := due_of_mem_runs ran
  obtain ⟨_, call⟩ := Scope.bound?_eq_some_iff.mp binds
  rw [Delegate.args_handlerArguments] at call
  exact ⟨bound, recordEq, call⟩

section

variable {scope : Scope} {handler : Value} (keeps : Delegate.Keeps scope handler turn.delegate)
  {run : CallRecord} (ran : run ∈ turn.runs)

include keeps ran

theorem receiver_of_mem_runs : run.receiver = some handler := by
  obtain ⟨bound, rfl, call⟩ := bindCall_of_mem_runs ran
  obtain ⟨receives, _, _⟩ := Store.bindCall_eq_ok_iff.mp call
  obtain ⟨_, listed⟩ := Scope.exists_mem_handlersIn keeps.found
  obtain ⟨_, _, onInstances⟩ := Scope.mem_handlersIn_iff.mp listed
  obtain ⟨value, id, targetEq, _, _, receiverEq⟩ :=
    (Store.bindReceiver_eq_ok_iff onInstances).mp receives
  rw [Store.BoundCall.record, receiverEq, Option.map_some, ← targetEq, keeps.holds]

theorem args_of_mem_runs :
    ∃ values, scope.store.bindArguments turn.delegate.ownParams turn.args = .ok values ∧
      run.args = turn.delegate.leading turn.invoked turn.before ++ values := by
  obtain ⟨bound, rfl, call⟩ := bindCall_of_mem_runs ran
  obtain ⟨_, binds, _⟩ := Store.bindCall_eq_ok_iff.mp call
  rw [keeps.within, Delegate.bindArguments_leading keeps] at binds
  cases own : scope.store.bindArguments turn.delegate.ownParams turn.args with
  | error reason =>
      rw [own] at binds
      cases binds
  | ok values =>
      rw [own] at binds
      exact ⟨values, rfl, (Except.ok.inj binds).symm⟩

/-- The body is given what the delegate's own number stands for. -/
theorem gives_of_mem_runs :
    turn.Gives (turn.delegate.dispatched + 1) run.args := by
  obtain ⟨values, bound, argsEq⟩ := args_of_mem_runs keeps ran
  rw [argsEq]
  cases takes : turn.delegate.takesContext with
  | true =>
      obtain ⟨reference, leads, _, configured, asked, payload⟩ :=
        Delegate.leading_of_takes keeps takes turn.invoked turn.before
      rw [leads, List.singleton_append]
      rw [← keeps.within] at configured bound
      exact .withContext takes configured asked payload bound
  | false =>
      rw [Delegate.leading_of_plain takes, List.nil_append]
      rw [Delegate.ownParams, takes, if_neg Bool.false_ne_true, ← keeps.within] at bound
      exact .plain takes bound

theorem head_of_mem_runs (takes : turn.delegate.takesContext = true) :
    ∃ reference : ObjectRef, run.args.head? = some (.object reference) ∧
      reference.ident = turn.before.nextObject ∧
      turn.after.nextObject = turn.before.nextObject + 1 := by
  obtain ⟨values, _, argsEq⟩ := args_of_mem_runs keeps ran
  obtain ⟨reference, leads, ident, _⟩ :=
    Delegate.leading_of_takes keeps takes turn.invoked turn.before
  refine ⟨reference, by rw [argsEq, leads, List.singleton_append, List.head?_cons], ident, ?_⟩
  rw [after, Delegate.nextObject_dispatch, leads, List.length_singleton]

end

/-- The contexts of two turns are different objects: the later turn has only
numbers that the earlier one has left over. -/
theorem firsts_differ {scope : Scope} {handler : Value} {earlier later : Turn}
    (earlierKeeps : Delegate.Keeps scope handler earlier.delegate)
    (laterKeeps : Delegate.Keeps scope handler later.delegate)
    (earlierTakes : earlier.delegate.takesContext = true)
    (laterTakes : later.delegate.takesContext = true)
    (leftOver : earlier.after.nextObject ≤ later.before.nextObject)
    {run other : CallRecord} (ran : run ∈ earlier.runs) (otherRan : other ∈ later.runs)
    {first second : Value} (firstEq : run.args.head? = some first)
    (secondEq : other.args.head? = some second) : first.agrees second = false := by
  obtain ⟨context, headEq, ident, used⟩ := head_of_mem_runs earlierKeeps ran earlierTakes
  obtain ⟨another, otherHeadEq, otherIdent, _⟩ := head_of_mem_runs laterKeeps otherRan laterTakes
  cases Option.some.inj (headEq.symm.trans firstEq)
  cases Option.some.inj (otherHeadEq.symm.trans secondEq)
  have apart : context.ident ≠ another.ident := by omega
  simpa [Value.agrees] using apart

end Turn

namespace Delegate

/-! ## Any number of turns -/

variable {scope : Scope} {handler : Value} {delegate : Delegate}

theorem dispatched_of_made (made : ofHandler scope handler = .ok delegate) :
    delegate.dispatched = 0 := by
  obtain ⟨member, _, rfl⟩ := exists_of_map_eq_ok made
  rfl

/-- At every position the delegate is the one that was made, but for its count. -/
theorem keeps_of_turn (made : ofHandler scope handler = .ok delegate)
    {moves : List (Move scope.store)} {state : RunState} {index : Nat} {turn : Turn}
    (taken : (delegate.turns moves state)[index]? = some turn) :
    turn.delegate = { delegate with dispatched := index } ∧
      Keeps scope handler turn.delegate := by
  have keeps := (Serves.made made).keeps
  have same := delegate_of_turn taken
  rw [dispatched_of_made made, Nat.zero_add] at same
  rw [same]
  exact ⟨rfl, keeps.within, keeps.holds, keeps.found, keeps.asks⟩

/-- The n-th call that a delegate dispatches has the number n, whatever becomes of
it and of the others.  It runs one body at most, on the caller's arguments as
they bind, after a context of this one call if the handler takes one. -/
theorem turns_numbered (made : ofHandler scope handler = .ok delegate)
    (moves : List (Move scope.store)) (state : RunState) :
    (delegate.turns moves state).map (fun turn => (turn.invoked, turn.args)) =
        moves.filterMap Move.call? ∧
      (∀ (index : Nat) (turn : Turn), (delegate.turns moves state)[index]? = some turn →
        turn.delegate = { delegate with dispatched := index } ∧
          turn.next = { delegate with dispatched := index + 1 } ∧
          turn.after.calls = turn.before.calls ++ turn.runs ∧ turn.runs.length ≤ 1 ∧
          ∀ run ∈ turn.runs, Ran turn.before turn.after run ∧ run.receiver = some handler ∧
            turn.Gives (index + 1) run.args) ∧
      (delegate.takesContext = true →
        (delegate.turns moves state).Pairwise fun earlier later =>
          ∀ run ∈ earlier.runs, ∀ other ∈ later.runs, ∀ first second,
            run.args.head? = some first → other.args.head? = some second →
              first.agrees second = false) := by
  refine ⟨calls_of_turns moves state, ?_, ?_⟩
  · intro index turn taken
    obtain ⟨same, keeps⟩ := keeps_of_turn made taken
    refine ⟨same, by rw [Turn.next, dispatch, same], turn.calls_after, turn.length_runs_le_one, ?_⟩
    intro run ran
    have gives := Turn.gives_of_mem_runs keeps ran
    rw [same] at gives
    exact ⟨Turn.ran_of_mem_runs ran, Turn.receiver_of_mem_runs keeps ran, gives⟩
  · intro takes
    refine (pairwise_turns moves state).imp_of_mem ?_
    intro earlier later earlierMade laterMade leftOver run ran other otherRan first second
      firstEq secondEq
    obtain ⟨_, earlierTaken⟩ := List.mem_iff_getElem?.mp earlierMade
    obtain ⟨_, laterTaken⟩ := List.mem_iff_getElem?.mp laterMade
    obtain ⟨earlierSame, earlierKeeps⟩ := keeps_of_turn made earlierTaken
    obtain ⟨laterSame, laterKeeps⟩ := keeps_of_turn made laterTaken
    have earlierTakes : earlier.delegate.takesContext = true := by rw [earlierSame, takes]
    have laterTakes : later.delegate.takesContext = true := by rw [laterSame, takes]
    exact Turn.firsts_differ earlierKeeps laterKeeps earlierTakes laterTakes leftOver ran otherRan
      firstEq secondEq

end Delegate

/-! ## A gatehouse

Its class is restricted, and its guard cries out at thieves. -/

namespace Gatehouse

open Store

def gatehouse : ClassId := ⟨26⟩

def alarm : Throwable :=
  .uncaused ⟨0, .runtimeException, "java.lang.RuntimeException", some "thief", []⟩

def guards : Body :=
  .native fun _ args tallies =>
    match args with
    | [_, .text "thief"] => (.error alarm, tallies)
    | _ => (.ok .void, tallies)

def classes : List ClassDef :=
  [{ platformClass "Gatehouse" (some .object) [] with
      members :=
        [{ name := "admit", params := [.ofClass .invocation, .ofClass .string], returns := .void,
           isStatic := false, visibility := .packageAccess, body := some guards }]
      restricted := true }]

def scope : Scope := .ofStore (platform.addAll classes) []

def keeper : Value := .object (RunState.initial.newObject gatehouse none).1

def dawn : RunState := (RunState.initial.newObject gatehouse none).2

def knock (args : List Value) : Move scope.store := .dispatch "knock()" args

/-- The gate is closed to the first, the third does not speak, and the fourth
is a thief. -/
def day : List (Move scope.store) :=
  [knock [.text "monk"]] ++ (scope.store.members gatehouse).map .relax ++
    [knock [.text "monk"], knock [], knock [.text "thief"]]

def ending : Except CallFailure Value → String
  | .ok _ => "returned"
  | .error (.raised _ _) => "raised"
  | .error (.refused (.accessDenied _)) => "denied"
  | .error (.refused _) => "refused"

/-- Calls that fail take numbers too: the guard's body runs in the second and in the
fourth, on contexts with these numbers. -/
theorem day_numbered :
    ∃ delegate, Delegate.ofHandler scope keeper = .ok delegate ∧ delegate.takesContext = true ∧
      (delegate.turns day dawn).map (fun turn => ending turn.outcome) =
        ["denied", "returned", "refused", "raised"] ∧
      ∃ second run fourth other,
        (delegate.turns day dawn)[1]? = some second ∧ run ∈ second.runs ∧
          second.Gives 2 run.args ∧
        (delegate.turns day dawn)[3]? = some fourth ∧ other ∈ fourth.runs ∧
          fourth.Gives 4 other.args := by
  have computed :
      (match Delegate.ofHandler scope keeper with
        | .error _ => false
        | .ok delegate =>
          delegate.takesContext &&
            (delegate.turns day dawn).map
                (fun turn => (ending turn.outcome, turn.runs.length)) =
              [("denied", 0), ("returned", 1), ("refused", 0), ("raised", 1)]) = true := by
    decide +kernel
  split at computed
  · cases computed
  · rename_i delegate made
    simp only [Bool.and_eq_true, decide_eq_true_eq] at computed
    obtain ⟨takes, ends⟩ := computed
    obtain ⟨_, numbered, _⟩ := Delegate.turns_numbered made day dawn
    have endings := congrArg (List.map Prod.fst) ends
    rw [List.map_map] at endings
    have ranOnce (index : Nat) {result : String}
        (ended : [("denied", 0), ("returned", 1), ("refused", 0), ("raised", 1)][index]? =
          some (result, 1)) :
        ∃ turn run, (delegate.turns day dawn)[index]? = some turn ∧ run ∈ turn.runs ∧
          turn.Gives (index + 1) run.args := by
      rw [← ends, List.getElem?_map] at ended
      obtain ⟨turn, taken, pairEq⟩ := Option.map_eq_some_iff.mp ended
      obtain ⟨run, runsEq⟩ := List.length_eq_one_iff.mp (congrArg Prod.snd pairEq)
      have ran : run ∈ turn.runs := by
        rw [runsEq]
        exact List.mem_singleton_self run
      obtain ⟨_, _, _, _, given⟩ := numbered index turn taken
      exact ⟨turn, run, taken, ran, (given run ran).2.2⟩
    obtain ⟨second, run, secondTaken, ran, secondGives⟩ := ranOnce 1 rfl
    obtain ⟨fourth, other, fourthTaken, otherRan, fourthGives⟩ := ranOnce 3 rfl
    exact ⟨delegate, made, takes, endings, second, run, fourth, other, secondTaken, ran,
      secondGives, fourthTaken, otherRan, fourthGives⟩

end Gatehouse

end MemberDispatch
