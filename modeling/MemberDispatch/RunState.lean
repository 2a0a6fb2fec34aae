import MemberDispatch.Event

/-!
# Run states

What calls change: which members have had their access checks relaxed, the
numbers for new objects and throwables, the counters that bodies share, and
the logs of calls and events.  A class store is no part of it.
-/

set_option autoImplicit false

namespace MemberDispatch

structure CallRecord where
  member : Member
  /-- Nothing for a static member. -/
  receiver : Option Value
  args : List Value
deriving Inhabited

structure RunState where
  /-- Serials of members whose access checks are relaxed. -/
  relaxed : List Nat
  nextObject : Nat
  nextThrowable : Nat
  tallies : List (String × Nat)
  /-- Oldest first. -/
  calls : List CallRecord
  /-- Oldest first. -/
  events : List Event
deriving Inhabited

namespace RunState

def initial : RunState := ⟨[], 0, 0, [], [], []⟩

def log (state : RunState) (events : List Event) : RunState :=
  { state with events := state.events ++ events }

def recordCall (state : RunState) (call : CallRecord) : RunState :=
  { state with calls := state.calls ++ [call] }

/-- Forgets the logs and keeps all else. -/
def withoutLogs (state : RunState) : RunState :=
  { state with calls := [], events := [] }

def newObject (state : RunState) (id : ClassId) (context : Option InvocationContext) :
    ObjectRef × RunState :=
  (⟨state.nextObject, id, context⟩, { state with nextObject := state.nextObject + 1 })

def newThrowable (state : RunState) : Nat × RunState :=
  (state.nextThrowable, { state with nextThrowable := state.nextThrowable + 1 })

def tally (state : RunState) (counter : String) : Nat × RunState :=
  let count := (state.tallies.lookup counter).getD 0 + 1
  let others := state.tallies.filter fun entry => entry.1 ≠ counter
  (count, { state with tallies := (counter, count) :: others })

/-! ## Access -/

/-- Public members are accessible from the start. -/
def accessible (state : RunState) (member : Member) : Bool :=
  member.isPublic || state.relaxed.contains member.serial

/-- Relaxes the access checks of a member; true for the call that did so. -/
def relax (state : RunState) (member : Member) : Bool × RunState :=
  if state.accessible member then (false, state)
  else (true, { state with relaxed := member.serial :: state.relaxed })

theorem accessible_relax (state : RunState) (member : Member) :
    (state.relax member).2.accessible member = true := by
  unfold relax
  split
  · assumption
  · simp [accessible]

end RunState

def Body.run (body : Body) (receiver : Option Value) (args : List Value)
    (state : RunState) : Except Throwable Value × RunState :=
  match body with
  | .give value => (.ok value, state)
  | .raise thrown => (.error thrown, state)
  | .argument position => (.ok (args[position]?.getD .void), state)
  | .receiver => (.ok (receiver.getD .void), state)
  | .tally counter =>
    let (count, state) := state.tally counter
    (.ok (.int (Int32.ofNat count)), state)
  | .native run =>
    let (outcome, tallies) := run receiver args state.tallies
    (outcome, { state with tallies })

end MemberDispatch
