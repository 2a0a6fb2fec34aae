import MemberDispatch.Proofs.Invoke.Effects
import MemberDispatch.Proofs.Resolve.Candidates
import MemberDispatch.Proofs.Resolve.Handler
import MemberDispatch.Proofs.Store.Coherent

/-!
# Access and runs over whole sessions

A session is any sequence of lookups, access checks and calls, made by whatever
dispatchers over one store.  A handle is opened by an operation that was applied
to it, once and for good, and never if its class is restricted: then whatever is
applied to it is denied.  A body runs exactly where a call is bound to it.
-/

set_option autoImplicit false

namespace MemberDispatch

/-! ## Lookups -/

inductive Lookup where
  | resolve (query : Query) (start : ClassId)
  | specified (start : ClassId) (name : String) (types : List Ty)
  | compatible (start : ClassId) (name : String) (types : List Ty)
  | onClass (start : ClassId) (name : String) (types : List Ty)
  | publicMember (start : ClassId) (name : String) (types : List Ty)
  /-- Whoever makes a delegate looks up its handler. -/
  | handler (value : Value)
  | arguments (args : List Value)

namespace Lookup

def events (scope : Scope) : Lookup → List Event
  | resolve query start => scope.resolutionEvents query start
  | specified start name types => scope.resolutionEvents ⟨name, types, .exact⟩ start
  | compatible start name types => scope.resolutionEvents ⟨name, types, .coercive⟩ start
  | onClass start name types => scope.resolutionEvents ⟨name, types, .coercive⟩ start
  | publicMember _ _ _ => []
  | handler value => scope.handlerEvents value
  | arguments _ => []

def found? (scope : Scope) : Lookup → Option Member
  | resolve query start => (scope.resolve query start).map Candidate.member
  | specified start name types => (scope.findSpecified start name types).toOption
  | compatible start name types => (scope.findCompatible start name types).toOption
  | onClass start name types => (scope.findStatic start name types).toOption
  | publicMember start name types => scope.store.findPublic? start name types
  | handler value => (scope.findHandler value).toOption
  | arguments _ => none

def fault? (scope : Scope) : Lookup → Option Fault
  | resolve _ _ => none
  | specified start name types => failure? (scope.findSpecified start name types)
  | compatible start name types => failure? (scope.findCompatible start name types)
  | onClass start name types => failure? (scope.findStatic start name types)
  | publicMember _ _ _ => none
  | handler value => failure? (scope.findHandler value)
  | arguments args => failure? (scope.store.typeArguments args)

variable {scope : Scope}

theorem declared_of_resolve {query : Query} {start : ClassId} {found : Candidate}
    (resolved : scope.resolve query start = some found) :
    ∃ id, found.member ∈ scope.store.members id := by
  obtain ⟨id, _, represents⟩ := Scope.resolve_represents resolved
  exact ⟨id, (Scope.candidateIn_accepted represents).declared⟩

theorem declared_of_findCompatible? {start : ClassId} {name : String} {types : List Ty}
    {member : Member} (found : scope.findCompatible? start name types = some member) :
    ∃ id, member ∈ scope.store.members id := by
  obtain ⟨candidate, resolved, rfl⟩ := Option.map_eq_some_iff.mp found
  exact declared_of_resolve resolved

/-- What is looked up is declared by a class of the store. -/
theorem declared_of_found {lookup : Lookup} {member : Member}
    (found : lookup.found? scope = some member) : ∃ id, member ∈ scope.store.members id := by
  cases lookup with
  | resolve query start =>
      obtain ⟨candidate, resolved, rfl⟩ := Option.map_eq_some_iff.mp found
      exact declared_of_resolve resolved
  | specified start name types =>
      rw [found?, Scope.findSpecified] at found
      split at found
      · rename_i candidate resolved
        cases found
        exact declared_of_resolve resolved
      · cases found
  | compatible start name types =>
      rw [found?, Scope.findCompatible] at found
      split at found
      · rename_i other compatible
        cases found
        exact declared_of_findCompatible? compatible
      · cases found
  | onClass start name types =>
      rw [found?, Scope.findStatic] at found
      split at found
      · rename_i other compatible
        split at found
        · cases found
          exact declared_of_findCompatible? compatible
        · cases found
      · cases found
  | publicMember start name types =>
      obtain ⟨id, _, declared⟩ := List.exists_of_findSome?_eq_some found
      exact ⟨id, List.mem_of_find?_eq_some declared⟩
  | handler value =>
      rw [found?] at found
      cases searched : scope.findHandler value with
      | error fault =>
          rw [searched] at found
          cases found
      | ok other =>
          rw [searched] at found
          cases found
          obtain ⟨id, listed⟩ := Scope.exists_mem_handlersIn searched
          exact ⟨id, (Scope.mem_handlersIn_iff.mp listed).1⟩
  | arguments args => cases found

end Lookup

namespace Entry

variable {scope : Scope}

/-- The handle that comes with an entry, where the member is not looked up. -/
def given? : Entry scope → Option Member
  | call _ member _ => some member
  | invoke _ member _ => some member
  | dispatch delegate _ _ _ => some delegate.member
  | callSpecified _ _ _ _ _ => none
  | invokeSpecified _ _ _ _ _ => none
  | invokeInstance _ _ _ _ => none
  | invokeStatic _ _ _ => none
  | invokePublic _ _ _ _ _ => none

/-- The member of a request came with the entry, or it was looked up. -/
theorem given_or_found {entry : Entry scope} {state : RunState} {request : Request}
    (asked : entry.request? state = some request) :
    entry.given? = some request.member ∨
      ∃ lookup : Lookup, lookup.found? scope = some request.member := by
  cases entry with
  | call target member args =>
      cases asked
      exact .inl rfl
  | invoke target member args =>
      cases asked
      exact .inl rfl
  | callSpecified start target name types args =>
      obtain ⟨member, found, rfl⟩ := Option.map_eq_some_iff.mp asked
      exact .inr ⟨.specified start name types, found⟩
  | invokeSpecified start target name types args =>
      obtain ⟨member, found, rfl⟩ := Option.map_eq_some_iff.mp asked
      exact .inr ⟨.specified start name types, found⟩
  | invokeInstance start target name args =>
      obtain ⟨typed, _, asks⟩ := Option.bind_eq_some_iff.mp asked
      obtain ⟨member, found, rfl⟩ := Option.map_eq_some_iff.mp asks
      exact .inr ⟨.compatible start name typed.types, found⟩
  | invokeStatic start name args =>
      obtain ⟨typed, _, asks⟩ := Option.bind_eq_some_iff.mp asked
      obtain ⟨member, found, rfl⟩ := Option.map_eq_some_iff.mp asks
      exact .inr ⟨.onClass start name typed.types, found⟩
  | invokePublic start target name types args =>
      obtain ⟨member, found, rfl⟩ := Option.map_eq_some_iff.mp asked
      exact .inr ⟨.publicMember start name types, found⟩
  | dispatch delegate within invoked args =>
      cases asked
      exact .inl rfl

end Entry

/-! ## Operations -/

inductive Operation (scope : Scope) where
  | lookUp (lookup : Lookup)
  | ensureAccessible (member : Member)
  | enter (entry : Entry scope)

namespace Operation

variable {scope : Scope}

def run : Operation scope → RunState → RunState
  | lookUp lookup, state => state.log (lookup.events scope)
  | ensureAccessible member, state => (scope.ensureAccessible member state).2
  | enter entry, state => entry.run state

def fault? : Operation scope → RunState → Option Fault
  | lookUp lookup, _ => lookup.fault? scope
  | ensureAccessible member, state => failure? (scope.ensureAccessible member state).1
  | enter entry, state => entry.fault? state

/-- The member that an operation is applied to; a lookup is applied to none. -/
def member? : Operation scope → RunState → Option Member
  | lookUp _, _ => none
  | ensureAccessible member, _ => some member
  | enter entry, state => (entry.request? state).map Request.member

def bound? : Operation scope → RunState → Option Store.BoundCall
  | lookUp _, _ => none
  | ensureAccessible _, _ => none
  | enter entry, state => entry.bound? state

def given? : Operation scope → Option Member
  | lookUp _ => none
  | ensureAccessible member => some member
  | enter entry => entry.given?

/-- An operation is applied to issued handles, if those that it brings are. -/
theorem issued_of_member {issued : List Member} (history : scope.store.Issues issued)
    {operation : Operation scope} (given : ∀ member, operation.given? = some member →
      member ∈ issued) {state : RunState} {member : Member}
    (applied : operation.member? state = some member) : member ∈ issued := by
  cases operation with
  | lookUp lookup => cases applied
  | ensureAccessible own => exact given member applied
  | enter entry =>
      obtain ⟨request, asked, rfl⟩ := Option.map_eq_some_iff.mp applied
      rcases Entry.given_or_found asked with brought | ⟨lookup, found⟩
      · exact given request.member brought
      · obtain ⟨id, declared⟩ := Lookup.declared_of_found found
        exact history.numbers.complete id request.member declared

theorem accessible_run {issued : List Member} (history : scope.store.Issues issued)
    {operation : Operation scope} (given : ∀ member, operation.given? = some member →
      member ∈ issued) {handle : Member} (issues : handle ∈ issued) (state : RunState) :
    (operation.run state).accessible handle = true ↔
      state.accessible handle = true ∨
        operation.member? state = some handle ∧ ¬ scope.store.Restricts handle := by
  -- Flags go by serial; among issued handles that is the handle itself.
  have identified (member : Member) (applied : operation.member? state = some member)
      (same : handle.serial = member.serial) : handle = member :=
    history.eq_of_serial issues (issued_of_member history given applied) same
  cases operation with
  | lookUp lookup => simp [run, member?]
  | ensureAccessible member =>
      rw [run, Scope.accessible_ensureAccessible (identified member rfl), member?,
        Option.some.injEq]
  | enter entry =>
      apply entry.accessible_run state
      intro request asked
      exact identified request.member (by rw [member?, asked, Option.map_some])

/-- An operation relaxes no other handle than the one that it is applied to. -/
theorem relaxed_run (operation : Operation scope) (state : RunState) :
    (operation.run state).relaxed = state.relaxed ∨
      ∃ member, operation.member? state = some member ∧
        (operation.run state).relaxed = member.serial :: state.relaxed := by
  cases operation with
  | lookUp lookup => exact .inl rfl
  | ensureAccessible member =>
      rcases Scope.relaxed_ensureAccessible with same | opened
      · exact .inl same
      · exact .inr ⟨member, rfl, opened⟩
  | enter entry =>
      rcases entry.run_follows state with ⟨_, quiet⟩ | ⟨request, asked, follows⟩
      · exact .inl quiet.relaxed
      · obtain ⟨start, events, quiet, _, ends⟩ := follows
        have checked : (entry.run state).relaxed =
            (scope.ensureAccessible request.member start).2.relaxed := by
          rw [ends]
          exact Scope.relaxed_call request.target request.args
        rw [run, checked, ← quiet.relaxed]
        rcases Scope.relaxed_ensureAccessible with same | opened
        · exact .inl same
        · exact .inr ⟨request.member, by rw [member?, asked, Option.map_some], opened⟩

theorem relaxesOnly_run {issued : List Member} (history : scope.store.Issues issued)
    {operation : Operation scope} (given : ∀ member, operation.given? = some member →
      member ∈ issued) {state : RunState} (relaxes : state.RelaxesOnly issued) :
    (operation.run state).RelaxesOnly issued := by
  intro serial listed
  rcases operation.relaxed_run state with same | ⟨member, applied, opened⟩
  · exact relaxes serial (same ▸ listed)
  · rw [opened] at listed
    rcases List.mem_cons.mp listed with rfl | earlier
    · exact ⟨member, issued_of_member history given applied, rfl⟩
    · exact relaxes serial earlier

theorem runsDue_run (operation : Operation scope) (state : RunState) :
    scope.RunsDue (operation.bound? state) state (operation.fault? state)
      (operation.run state) := by
  cases operation with
  | lookUp lookup =>
      apply Scope.runsDue_none
      · exact RunState.calls_log state _
      · rfl
  | ensureAccessible member =>
      exact Scope.runsDue_none Scope.calls_ensureAccessible Scope.tallies_ensureAccessible _
  | enter entry => exact entry.runsDue_run state

theorem denied_run (operation : Operation scope) {state : RunState} {member : Member}
    (applied : operation.member? state = some member)
    (closed : scope.grants member state = false) :
    operation.fault? state = some (.accessDenied (scope.qualifiedSignature member)) ∧
      state.Quiet (operation.run state) := by
  cases operation with
  | lookUp lookup => cases applied
  | ensureAccessible own =>
      cases applied
      rw [fault?, run, Scope.ensureAccessible_of_closed closed]
      exact ⟨rfl, .refl state⟩
  | enter entry => exact entry.denied_run state applied closed

end Operation

/-! ## Sessions -/

/-- An operation of some dispatcher over the store. -/
structure Step (store : Store) where
  scope : Scope
  within : scope.store = store
  operation : Operation scope

structure Visit (store : Store) where
  step : Step store
  before : RunState

namespace Visit

variable {store : Store}

def after (visit : Visit store) : RunState := visit.step.operation.run visit.before

def member? (visit : Visit store) : Option Member :=
  visit.step.operation.member? visit.before

def bound? (visit : Visit store) : Option Store.BoundCall :=
  visit.step.operation.bound? visit.before

def fault? (visit : Visit store) : Option Fault := visit.step.operation.fault? visit.before

def flips (handle : Member) (visit : Visit store) : Bool :=
  visit.after.accessible handle != visit.before.accessible handle

end Visit

namespace Session

variable {store : Store}

/-- The steps of a session in the states in which they are made. -/
def visits : List (Step store) → RunState → List (Visit store)
  | [], _ => []
  | step :: rest, state => ⟨step, state⟩ :: visits rest (step.operation.run state)

/-- The handles that a session brings have been issued. -/
def KeepsTo (issued : List Member) (session : List (Step store)) : Prop :=
  ∀ step ∈ session, ∀ member, step.operation.given? = some member → member ∈ issued

theorem step_of_mem_visits {session : List (Step store)} {state : RunState}
    {visit : Visit store} (visited : visit ∈ visits session state) : visit.step ∈ session := by
  induction session generalizing state with
  | nil => cases visited
  | cons step rest ih =>
      rcases List.mem_cons.mp visited with rfl | later
      · exact List.mem_cons_self
      · exact List.mem_cons_of_mem step (ih later)

/-- What every step preserves holds before and after each of them. -/
theorem invariant_of_steps (invariant : RunState → Prop) {session : List (Step store)}
    (preserved : ∀ step ∈ session, ∀ state, invariant state →
      invariant (step.operation.run state)) {state : RunState} (start : invariant state)
    {visit : Visit store} (visited : visit ∈ visits session state) :
    invariant visit.before ∧ invariant visit.after := by
  induction session generalizing state with
  | nil => cases visited
  | cons step rest ih =>
      have next := preserved step List.mem_cons_self state start
      rcases List.mem_cons.mp visited with rfl | later
      · exact ⟨start, next⟩
      · exact ih (fun other member => preserved other (List.mem_cons_of_mem step member))
          next later

section

variable {issued : List Member} (history : store.Issues issued) {session : List (Step store)}
  {handle : Member}

include history

theorem accessible_step (keeps : KeepsTo issued session) (issues : handle ∈ issued)
    {step : Step store} (made : step ∈ session) (state : RunState) :
    (step.operation.run state).accessible handle = true ↔
      state.accessible handle = true ∨
        step.operation.member? state = some handle ∧ ¬ store.Restricts handle := by
  obtain ⟨scope, rfl, operation⟩ := step
  exact operation.accessible_run history (keeps _ made) issues state

/-- A session relaxes issued handles alone. -/
theorem relaxesOnly_of_mem_visits (keeps : KeepsTo issued session) {state : RunState}
    (relaxes : state.RelaxesOnly issued) {visit : Visit store}
    (visited : visit ∈ visits session state) :
    visit.before.RelaxesOnly issued ∧ visit.after.RelaxesOnly issued := by
  refine invariant_of_steps (fun state => state.RelaxesOnly issued) ?_ relaxes visited
  rintro ⟨scope, rfl, operation⟩ made before relaxes
  exact operation.relaxesOnly_run history (keeps _ made) relaxes

theorem flips_of_accessible (keeps : KeepsTo issued session) (issues : handle ∈ issued)
    {state : RunState} (opened : state.accessible handle = true) :
    (visits session state).filter (Visit.flips handle) = [] := by
  rw [List.filter_eq_nil_iff]
  intro visit visited
  obtain ⟨before, after⟩ := invariant_of_steps (fun state => state.accessible handle = true)
    (fun step made state opened =>
      (accessible_step history keeps issues made state).mpr (.inl opened)) opened visited
  simp [Visit.flips, before, after]

theorem length_flips_le_one (keeps : KeepsTo issued session) (issues : handle ∈ issued)
    (state : RunState) : ((visits session state).filter (Visit.flips handle)).length ≤ 1 := by
  induction session generalizing state with
  | nil => exact Nat.zero_le 1
  | cons step rest ih =>
      have restKeeps : KeepsTo issued rest :=
        fun other made => keeps other (List.mem_cons_of_mem step made)
      rw [visits, List.filter_cons]
      split
      · rename_i flipped
        -- A flip ends in an accessible handle, and from there on none follows.
        have opened : (step.operation.run state).accessible handle = true := by
          by_contra closed
          have before : ¬ state.accessible handle = true := fun opened =>
            closed ((accessible_step history keeps issues List.mem_cons_self state).mpr (.inl opened))
          simp [Visit.flips, Visit.after, closed, before] at flipped
        rw [flips_of_accessible history restKeeps issues opened, List.length_singleton]
      · exact ih restKeeps (step.operation.run state)

theorem closed_of_restricts (keeps : KeepsTo issued session) (issues : handle ∈ issued)
    (restricted : store.Restricts handle) {state : RunState}
    (closed : state.accessible handle = false) {visit : Visit store}
    (visited : visit ∈ visits session state) :
    visit.before.accessible handle = false ∧ visit.after.accessible handle = false := by
  refine invariant_of_steps (fun state => state.accessible handle = false) ?_ closed visited
  intro step made before closed
  rw [Bool.eq_false_iff, ne_eq, accessible_step history keeps issues made before]
  simp [closed, restricted]

/-- Whatever dispatchers do over a store, a handle changes its flag at most once,
and a step opens the handle that it was applied to and nothing else; a closed
handle of a restricted class stays closed, and what is applied to it is denied;
and each step runs what it is due, once, and nothing else. -/
theorem visits_orderly (keeps : KeepsTo issued session) (state : RunState) :
    (∀ handle ∈ issued,
      ((visits session state).filter (Visit.flips handle)).length ≤ 1 ∧
        ∀ visit ∈ visits session state,
          (visit.after.accessible handle = true ↔
            visit.before.accessible handle = true ∨
              visit.member? = some handle ∧ ¬ store.Restricts handle)) ∧
    (∀ handle ∈ issued, state.accessible handle = false → store.Restricts handle →
      ∀ visit ∈ visits session state,
        visit.after.accessible handle = false ∧
          (visit.member? = some handle →
            visit.fault? = some (.accessDenied (visit.step.scope.qualifiedSignature handle)) ∧
              visit.before.Quiet visit.after)) ∧
    ∀ visit ∈ visits session state,
      visit.step.scope.RunsDue visit.bound? visit.before visit.fault? visit.after := by
  refine ⟨?_, ?_, ?_⟩
  · intro handle issues
    refine ⟨length_flips_le_one history keeps issues state, ?_⟩
    intro visit visited
    exact accessible_step history keeps issues (step_of_mem_visits visited) visit.before
  · intro handle issues closed restricted visit visited
    obtain ⟨before, after⟩ := closed_of_restricts history keeps issues restricted closed visited
    refine ⟨after, ?_⟩
    intro applied
    have forbidden : visit.step.scope.forbidsAccess handle = true := by
      rw [Scope.forbidsAccess_iff, visit.step.within]
      exact restricted
    exact visit.step.operation.denied_run applied (by simp [Scope.grants, before, forbidden])
  · intro visit _
    exact visit.step.operation.runsDue_run visit.before

end

end Session

/-! ## A lobby and a vault

Both ask for relaxation; the vault's class is restricted. -/

namespace Vault

open Store

def lobby : ClassId := ⟨26⟩
def vault : ClassId := ⟨27⟩

def duty (name : String) : MemberDef :=
  { name, params := [], returns := .void, isStatic := false, visibility := .packageAccess,
    body := some (.tally name) }

def classes : List ClassDef :=
  [{ platformClass "Lobby" (some .object) [] with members := [duty "greet"] },
    { platformClass "Vault" (some .object) [] with
      members := [duty "unlock"], restricted := true }]

def scope : Scope := .ofStore (platform.addAll classes) []

theorem scope_reachable : scope.store.Reachable := by
  simp only [scope, Scope.ofStore]
  exact Reachable.platform.addAll classes

def ask (id : ClassId) (name : String) : Step scope.store :=
  ⟨scope, rfl, .enter (.invokeSpecified id (some (.object ⟨0, id, none⟩)) name [] [])⟩

def session : List (Step scope.store) :=
  [ask lobby "greet", ask vault "unlock", ask lobby "greet"]

theorem keepsTo_session (issued : List Member) : Session.KeepsTo issued session := by
  intro step made member given
  simp only [session, List.mem_cons, List.not_mem_nil, or_false] at made
  rcases made with rfl | rfl | rfl <;> cases given

/-- The lobby is opened once, and the vault never. -/
theorem visits_session :
    ∃ issued, scope.store.Issues issued ∧ Session.KeepsTo issued session ∧
      (∃ greet ∈ issued, greet.declaringClass = lobby ∧
        ((Session.visits session .initial).filter (Visit.flips greet)).length = 1) ∧
      ∃ unlock ∈ issued, unlock.declaringClass = vault ∧ scope.store.Restricts unlock ∧
        RunState.initial.accessible unlock = false ∧
        ∀ visit ∈ Session.visits session .initial, visit.after.accessible unlock = false := by
  have computed :
      ((scope.store.members lobby).any fun greet =>
          greet.declaringClass = lobby &&
            (Session.visits session .initial).any (Visit.flips greet)) = true ∧
        ((scope.store.members vault).any fun unlock =>
          unlock.declaringClass = vault && scope.forbidsAccess unlock &&
            !RunState.initial.accessible unlock) = true := by
    decide +kernel
  obtain ⟨issued, history⟩ := scope_reachable.exists_issued
  have keeps := keepsTo_session issued
  obtain ⟨flipping, closing, _⟩ := Session.visits_orderly history keeps .initial
  obtain ⟨greet, greetDeclared, greetShown⟩ := List.any_eq_true.mp computed.1
  obtain ⟨unlock, unlockDeclared, unlockShown⟩ := List.any_eq_true.mp computed.2
  simp only [Bool.and_eq_true, decide_eq_true_eq, Bool.not_eq_true', Scope.forbidsAccess_iff,
    List.any_eq_true] at greetShown unlockShown
  obtain ⟨inLobby, visit, visited, flipped⟩ := greetShown
  obtain ⟨⟨inVault, restricted⟩, closed⟩ := unlockShown
  have greetIssued := history.numbers.complete lobby greet greetDeclared
  have unlockIssued := history.numbers.complete vault unlock unlockDeclared
  refine ⟨issued, history, keeps, ⟨greet, greetIssued, inLobby, ?_⟩,
    unlock, unlockIssued, inVault, restricted, closed, ?_⟩
  · have once := (flipping greet greetIssued).1
    have some := List.length_pos_of_mem (List.mem_filter.mpr ⟨visited, flipped⟩)
    omega
  · intro visit visited
    exact (closing unlock unlockIssued closed restricted visit visited).1

end Vault

end MemberDispatch
