import MemberDispatch.Proofs.Invoke.Progress
import MemberDispatch.Proofs.Resolve.Identical

/-!
# Plain overloads beside overloads with a context

A member with a leading context is matched by the parameters after it, so that
it ties with a plain member of these very parameters, and the first one declared
stays.  Where that is the plain one, a call by value reaches it; where it is the
one with the context, the call is refused for its number of arguments, although
the plain member would take it.
-/

set_option autoImplicit false

namespace MemberDispatch

/-- A call is refused for the number of its arguments. -/
def WrongCount (outcome : Except Fault Value) : Prop :=
  ∃ signature given expected cause,
    outcome = .error (.invalidArguments signature (.argumentCount given expected) cause)

namespace Scope

variable {scope : Scope} {start : ClassId} {found : Candidate}

/-! ## Calls that are refused for their number of arguments -/

theorem invoke_wrongCount_iff {target : Option Value} {member : Member} {args : List Value}
    {receiver : Option Store.BoundReceiver} {state : RunState}
    (receives : scope.store.bindReceiver target member = .ok receiver) :
    WrongCount (scope.invoke target member args state).1 ↔
      scope.grants member state = true ∧ member.params.length ≠ args.length := by
  have byReason : WrongCount (scope.invoke target member args state).1 ↔
      ∃ given expected signature cause, (scope.invoke target member args state).1 =
        .error (.invalidArguments signature (.argumentCount given expected) cause) := by
    constructor
    · rintro ⟨signature, given, expected, cause, refused⟩
      exact ⟨given, expected, signature, cause, refused⟩
    · rintro ⟨given, expected, signature, cause, refused⟩
      exact ⟨signature, given, expected, cause, refused⟩
  rw [byReason]
  simp only [invoke_eq_invalid_iff, ensureAccessible_eq_ok_iff,
    Store.bindCall_eq_error_iff receives, Store.bindArguments_eq_argumentCount_iff]
  simp

/-- The values of typed arguments are counted by the types they are found by. -/
theorem params_length_ne_iff_takesContext {name : String} {args : List Value}
    {typed : TypedArguments} (derived : scope.store.typeArguments args = .ok typed)
    (resolved : scope.resolve ⟨name, typed.types, .coercive⟩ start = some found) :
    found.member.params.length ≠ typed.values.length ↔ found.takesContext = true := by
  obtain ⟨level, _, represents⟩ := resolve_represents resolved
  have counts := (candidateIn_accepted represents).params_length
  rw [(Store.stands_of_typeArgumentsFrom derived).length_eq] at counts
  rw [counts]
  cases found.takesContext <;> simp

theorem invokeInstance_wrongCount_iff (reached : scope.store.Reachable)
    (object : scope.store.Bare .object) {target : Value} {id : ClassId} {name : String}
    {args : List Value} {typed : TypedArguments} {state : RunState}
    (runtime : target.classId? = some id) (below : scope.store.isSubclass id start = true)
    (derived : scope.store.typeArguments args = .ok typed)
    (resolved : scope.resolve ⟨name, typed.types, .coercive⟩ start = some found) :
    WrongCount (scope.invokeInstance start target name args state).1 ↔
      found.takesContext = true ∧ scope.grants found.member state = true := by
  obtain ⟨receiver, receives⟩ := bindReceiver_of_resolved reached object resolved runtime below
  rw [invokeInstance_of_resolved derived resolved, invoke_wrongCount_iff receives,
    params_length_ne_iff_takesContext derived resolved, grants_of_quiet (RunState.quiet_log _ _), and_comm]

theorem invokeStatic_wrongCount_iff {name : String} {args : List Value}
    {typed : TypedArguments} {state : RunState}
    (derived : scope.store.typeArguments args = .ok typed)
    (resolved : scope.resolve ⟨name, typed.types, .coercive⟩ start = some found) :
    WrongCount (scope.invokeStatic start name args state).1 ↔
      found.takesContext = true ∧ found.member.isStatic = true ∧
        scope.grants found.member state = true := by
  simp only [invokeStatic, derived, findStatic, findCompatible?, resolved, Option.map_some]
  cases sort : found.member.isStatic with
  | false => simp [WrongCount]
  | true =>
      rw [if_pos rfl, invoke_wrongCount_iff (Store.bindReceiver_of_static sort none),
        params_length_ne_iff_takesContext derived resolved, grants_of_quiet (RunState.quiet_log _ _)]
      simp [and_comm]

/-! ## The overload that a plain member meets -/

/-- What resolution finds on its first class represents that class. -/
theorem candidateIn_of_resolved (reached : scope.store.Reachable) {query : Query}
    (resolved : scope.resolve query start = some found)
    (own : found.member.declaringClass = start) :
    scope.candidateIn query start = some found := by
  obtain ⟨level, _, represents⟩ := resolve_represents resolved
  have declared := reached.declaringClass (candidateIn_accepted represents).declared
  rwa [← own, declared]

/-- A class that declares a member with exactly the types of the arguments is
asked for it by value.  Resolution finds a member of the class with a context
only if the first identical member of the class takes one, or some member
undercuts the types, which takes a cycle.  Without cycles it finds that first
member, and the call is refused for its number of arguments exactly if that
member takes a context and may be called at all. -/
theorem resolve_beside_plain (reached : scope.store.Reachable) {name : String}
    {types : List Ty} {plain : Member} (declared : plain ∈ scope.store.members start)
    (named : plain.name = name) (same : plain.params = types) :
    ∃ first, scope.firstIdentical? ⟨name, types, .coercive⟩ start = some first ∧
      (∀ found, scope.resolve ⟨name, types, .coercive⟩ start = some found →
        found.member.declaringClass = start → found.takesContext = true →
          first.takesContext = true ∨
            ∃ candidate, scope.Accepted ⟨name, types, .coercive⟩ start candidate ∧
              scope.Undercuts types candidate) ∧
      (scope.store.Acyclic → scope.store.Bare .object →
        scope.resolve ⟨name, types, .coercive⟩ start = some first ∧
        ∀ args values, scope.store.typeArguments args = .ok ⟨types, values⟩ →
          (∀ target id state, target.classId? = some id →
            scope.store.isSubclass id start = true →
              (WrongCount (scope.invokeInstance start target name args state).1 ↔
                first.takesContext = true ∧ scope.grants first.member state = true)) ∧
          (∀ state, WrongCount (scope.invokeStatic start name args state).1 ↔
            first.takesContext = true ∧ first.member.isStatic = true ∧
              scope.grants first.member state = true)) := by
  obtain ⟨first, firstFound⟩ :
      ∃ first, scope.firstIdentical? ⟨name, types, .coercive⟩ start = some first :=
    exists_firstIdentical declared named same
  refine ⟨first, firstFound, ?_, ?_⟩
  · intro found resolved own context
    by_cases undercut : ∃ candidate, scope.Accepted ⟨name, types, .coercive⟩ start candidate ∧
        scope.Undercuts types candidate
    · exact .inr undercut
    · left
      have above : ∀ candidate, scope.Accepted ⟨name, types, .coercive⟩ start candidate →
          ¬ scope.Undercuts types candidate :=
        fun candidate accepted below => undercut ⟨candidate, accepted, below⟩
      have represents := candidateIn_of_resolved reached resolved own
      rw [candidateIn_eq_firstIdentical? above firstFound] at represents
      exact Option.some.inj represents ▸ context
  · intro acyclic object
    have resolved := resolve_eq_firstIdentical?_of_acyclic acyclic object firstFound
    refine ⟨resolved, fun args values derived => ⟨?_, ?_⟩⟩
    · intro target id state runtime below
      exact invokeInstance_wrongCount_iff reached object runtime below derived resolved
    · intro state
      exact invokeStatic_wrongCount_iff derived resolved

end Scope

/-! ## Listeners

An observer declares its handler with a context before the plain one, a recorder
after it.  Day and night follow each other, and an almanac has a plain handler
for the one and a handler with a context for the other. -/

namespace Listeners

open Store

def observer : ClassId := ⟨26⟩
def recorder : ClassId := ⟨27⟩
def day : ClassId := ⟨28⟩
def night : ClassId := ⟨29⟩
def almanac : ClassId := ⟨30⟩

def handles (params : List ClassId) : MemberDef :=
  { name := "handle", params := params.map .ofClass, returns := .void, isStatic := false,
    visibility := .publicAccess, body := some .receiver }

def store : Store :=
  platform.addAll
    [{ platformClass "Observer" (some .object) [] with
        members := [handles [.invocation, .string], handles [.string]] },
      { platformClass "Recorder" (some .object) [] with
        members := [handles [.string], handles [.invocation, .string]] }]

def cyclicStore : Store :=
  store.addAll
    [platformClass "Day" (some night) [],
      platformClass "Night" (some day) [],
      { platformClass "Almanac" (some .object) [] with
        members := [handles [day], handles [.invocation, night]] }]

def scope : Scope := .ofStore store []

def cyclicScope : Scope := .ofStore cyclicStore []

def handling (id : ClassId) : Query := ⟨"handle", [.ofClass id], .coercive⟩

theorem scope_reachable : scope.store.Reachable := by
  simp only [scope, Scope.ofStore]
  exact Reachable.platform.addAll _

theorem scope_wellFormed : scope.store.WellFormed :=
  Descending.wellFormed (by decide +kernel)

theorem typeArguments_news :
    scope.store.typeArguments [.text "news"] = .ok ⟨[.ofClass .string], [.text "news"]⟩ := by
  have declared : scope.store.declaredType .string = .string := by decide +kernel
  simp [Store.typeArguments, Store.typeArgumentsFrom, Store.typeArgument?, Value.classId?,
    declared, Except.map]

/-- The recorder's plain handler comes first, and a call by value reaches it. -/
theorem recorder_beside_plain :
    scope.store.Reachable ∧ scope.store.Acyclic ∧ scope.store.Bare .object ∧
      (∃ plain ∈ scope.store.members recorder,
        plain.name = "handle" ∧ plain.params = [.ofClass .string]) ∧
      ∃ found, scope.resolve (handling .string) recorder = some found ∧
        found.takesContext = false ∧
        ¬ WrongCount (scope.invokeInstance recorder (.object ⟨0, recorder, none⟩) "handle"
          [.text "news"] .initial).1 := by
  have computed :
      ((scope.store.members recorder).any fun plain =>
          plain.name = "handle" && plain.params = [.ofClass .string]) = true ∧
        ((scope.firstIdentical? (handling .string) recorder).all fun first =>
          !first.takesContext) = true := by
    decide +kernel
  obtain ⟨plain, declared, shape⟩ := List.any_eq_true.mp computed.1
  simp only [Bool.and_eq_true, decide_eq_true_eq] at shape
  obtain ⟨first, firstFound, _, ordered⟩ :=
    Scope.resolve_beside_plain scope_reachable declared shape.1 shape.2
  obtain ⟨resolved, calls⟩ := ordered scope_wellFormed.acyclic scope_wellFormed.object
  have direct : first.takesContext = false := by
    have shown := computed.2
    rw [handling, firstFound] at shown
    simpa using shown
  refine ⟨scope_reachable, scope_wellFormed.acyclic, scope_wellFormed.object,
    ⟨plain, declared, shape⟩, first, resolved, direct, ?_⟩
  rw [(calls _ _ typeArguments_news).1 _ _ _ rfl (isSubclass_refl _ recorder)]
  simp [direct]

/-- The observer's handler with a context comes first and hides the plain one, so
that a call by value is refused.  Where day and night follow each other the
almanac's handler with a context is found although the plain one comes first. -/
theorem context_hides_plain :
    (scope.store.WellFormed ∧
      (∃ plain ∈ scope.store.members observer,
        plain.name = "handle" ∧ plain.params = [.ofClass .string]) ∧
      ∃ found, scope.resolve (handling .string) observer = some found ∧
        found.member.declaringClass = observer ∧ found.takesContext = true ∧
        WrongCount (scope.invokeInstance observer (.object ⟨0, observer, none⟩) "handle"
          [.text "news"] .initial).1) ∧
    ∃ plain rest found, cyclicScope.store.members almanac = plain :: rest ∧
      plain.name = "handle" ∧ plain.params = [.ofClass day] ∧
      cyclicScope.resolve (handling day) almanac = some found ∧
      found.member.declaringClass = almanac ∧ found.takesContext = true := by
  have computed :
      ((scope.store.members observer).any fun plain =>
          plain.name = "handle" && plain.params = [.ofClass .string]) = true ∧
        ((scope.resolve (handling .string) observer).any fun found =>
          found.member.declaringClass = observer && found.takesContext &&
            found.member.isPublic) = true := by
    decide +kernel
  have cyclic :
      ((cyclicScope.store.members almanac).head?.any fun plain =>
          plain.name = "handle" && plain.params = [.ofClass day]) = true ∧
        ((cyclicScope.resolve (handling day) almanac).any fun found =>
          found.member.declaringClass = almanac && found.takesContext) = true := by
    decide +kernel
  constructor
  · obtain ⟨plain, declared, shape⟩ := List.any_eq_true.mp computed.1
    obtain ⟨found, resolved, hidden⟩ := (Option.any_eq_true _ _).mp computed.2
    simp only [Bool.and_eq_true, decide_eq_true_eq] at shape hidden
    obtain ⟨⟨own, context⟩, isOpen⟩ := hidden
    refine ⟨scope_wellFormed, ⟨plain, declared, shape⟩, found, resolved, own, context, ?_⟩
    rw [Scope.invokeInstance_wrongCount_iff scope_reachable scope_wellFormed.object rfl
      (isSubclass_refl _ observer) typeArguments_news resolved]
    exact ⟨context, by simp [Scope.grants, RunState.accessible, isOpen]⟩
  · obtain ⟨plain, headEq, shape⟩ := (Option.any_eq_true _ _).mp cyclic.1
    obtain ⟨found, resolved, hidden⟩ := (Option.any_eq_true _ _).mp cyclic.2
    obtain ⟨rest, membersEq⟩ := List.head?_eq_some_iff.mp headEq
    simp only [Bool.and_eq_true, decide_eq_true_eq] at shape hidden
    exact ⟨plain, rest, found, membersEq, shape.1, shape.2, resolved, hidden.1, hidden.2⟩

end Listeners

end MemberDispatch
