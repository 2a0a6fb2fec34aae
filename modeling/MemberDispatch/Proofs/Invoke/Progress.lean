import MemberDispatch.Invoke.ByName
import MemberDispatch.Proofs.Hierarchy.DeclaredType
import MemberDispatch.Proofs.Invoke.Binding
import MemberDispatch.Proofs.Invoke.Call
import MemberDispatch.Proofs.Invoke.Override
import MemberDispatch.Proofs.Resolve.Candidates

/-!
# What is found by value also binds

Members are found by types that are read off the arguments, seen through
generated classes, while the arguments themselves are bound.  The two agree but
for two things that only binding knows of: a context that the caller has left
out, and parameters that take nothing but primitive values.
-/

set_option autoImplicit false

namespace MemberDispatch

namespace Store

variable {store : Store}

/-- How a value stands where a type is matched: a token states the type and
leaves `null` behind, any other value is seen by its declared type. -/
inductive Stands (store : Store) : Ty → Value → Prop where
  | token (type : Ty) : Stands store type .null
  | seen {value : Value} {id : ClassId} (runtime : value.classId? = some id) :
      Stands store (.ofClass (store.declaredType id)) value

theorem stands_of_typeArgument? {argument value : Value} {type : Ty}
    (typed : store.typeArgument? argument = some (type, value)) : store.Stands type value := by
  unfold typeArgument? at typed
  split at typed
  · cases Option.some.inj typed
    exact .token type
  · obtain ⟨id, runtime, pair⟩ := Option.map_eq_some_iff.mp typed
    cases pair
    exact .seen runtime

theorem stands_of_typeArgumentsFrom {position : Nat} {args : List Value}
    {typed : TypedArguments} (derived : store.typeArgumentsFrom position args = .ok typed) :
    List.Forall₂ store.Stands typed.types typed.values := by
  induction args generalizing position typed with
  | nil =>
      cases Except.ok.inj derived
      exact .nil
  | cons argument rest ih =>
      rw [typeArgumentsFrom] at derived
      cases first : store.typeArgument? argument with
      | none => simp [first] at derived
      | some pair =>
          rw [first] at derived
          obtain ⟨others, later, rfl⟩ := exists_of_map_eq_ok derived
          exact .cons (stands_of_typeArgument? first) (ih later)

/-! ## Single positions -/

/-- A parameter that takes nothing but primitive values, and a value that is
none of them. -/
def Clashes (param : Ty) (value : Value) : Prop :=
  param.isReference = false ∧ value.primitive? = none

/-- What is accepted for the declared type is assignable from the class that
stands in for it. -/
theorem isAssignable_of_accepts_declaredType {param : Ty} {id : ClassId}
    (reference : param.isReference = true)
    (accepted : store.accepts param (.ofClass (store.declaredType id)) = true) :
    store.isAssignable param (.ofClass id) = true := by
  have assignable := isAssignable_boxed_of_accepts accepted
  rw [Ty.boxed_of_isReference reference] at assignable
  exact isAssignable_of_path (ancestor_declaredType store id) assignable

/-- A class or an array takes a value as it is, wherever it accepts what the value
is matched by. -/
theorem bindValue_of_accepted {param type : Ty} {value : Value}
    (reference : param.isReference = true) (accepted : store.accepts param type = true)
    (stands : store.Stands type value) : store.bindValue param value = some value := by
  cases stands with
  | token => exact bindValue_null reference
  | @seen _ id runtime =>
      rw [bindValue_reference reference (Value.ne_null_of_classId? runtime), runtime,
        Option.bind_some, if_pos (isAssignable_of_accepts_declaredType reference accepted)]

theorem accepts_primitive_wrapper {kind other : Primitive} :
    store.accepts (.primitive kind) (.ofClass other.wrapper) = true ↔ kind = other := by
  rw [accepts, Bool.or_eq_true, Ty.equivalent_iff, isAssignable_value_iff rfl]
  simp [Ty.boxed, Primitive.wrapper_inj]

theorem bindValue_isSome_iff (genuine : ∀ kind : Primitive, store.Genuine kind.wrapper)
    {param type : Ty} {value : Value} (accepted : store.accepts param type = true)
    (stands : store.Stands type value) :
    (∃ bound, store.bindValue param value = some bound) ↔ ¬ Clashes param value := by
  cases sort : param.isReference with
  | true =>
      refine ⟨fun _ clashes => by simp [clashes.1] at sort, fun _ => ?_⟩
      exact ⟨value, bindValue_of_accepted sort accepted stands⟩
  | false =>
      cases kindEq : value.primitive? with
      | none =>
          refine ⟨?_, fun fits => absurd ⟨sort, kindEq⟩ fits⟩
          rintro ⟨bound, boundEq⟩
          cases param with
          | void => simp [bindValue] at boundEq
          | primitive kind =>
              rw [bindValue, Value.widenTo_eq_none_of_no_kind kind kindEq] at boundEq
              cases boundEq
          | ofClass id => simp [Ty.isReference] at sort
          | array component => simp [Ty.isReference] at sort
      | some kind =>
          refine ⟨fun _ clashes => by simp [clashes.2] at kindEq, fun _ => ?_⟩
          -- The value is boxed, and its wrapper stands in for nothing else.
          have boxed : type = .ofClass kind.wrapper := by
            cases stands with
            | token => simp [Value.primitive?] at kindEq
            | seen runtime =>
                rw [Value.classId?_of_primitive? kindEq] at runtime
                cases Option.some.inj runtime
                rw [declaredType_of_genuine (genuine kind)]
          subst boxed
          cases param with
          | void => simp [accepts, Ty.equivalent_iff, Ty.boxed, isAssignable_void] at accepted
          | primitive other =>
              cases accepts_primitive_wrapper.mp accepted
              exact ⟨value, Value.widenTo_self kindEq⟩
          | ofClass id => simp [Ty.isReference] at sort
          | array component => simp [Ty.isReference] at sort

/-! ## Whole argument lists -/

theorem stands_of_accepted {params types : List Ty} {values : List Value}
    (accepted : List.Forall₂ (fun param type => store.accepts param type = true) params types)
    (stands : List.Forall₂ store.Stands types values) :
    List.Forall₂
      (fun param value => ∃ type, store.accepts param type = true ∧ store.Stands type value)
      params values := by
  induction accepted generalizing values with
  | nil =>
      cases stands
      exact .nil
  | cons head _ ih =>
      cases stands with
      | cons stand rest => exact .cons ⟨_, head, stand⟩ (ih rest)

theorem bindArguments_isOk_iff_of_accepted
    (genuine : ∀ kind : Primitive, store.Genuine kind.wrapper)
    {params types : List Ty} {values : List Value}
    (accepted : pairwise store.accepts params types = true)
    (stands : List.Forall₂ store.Stands types values) :
    (∃ bound, store.bindArguments params values = .ok bound) ↔
      ∀ pair ∈ params.zip values, ¬ Clashes pair.1 pair.2 := by
  have positions := stands_of_accepted (pairwise_iff.mp accepted) stands
  rw [bindArguments_isOk_iff]
  constructor
  · rintro ⟨_, each⟩ pair member
    obtain ⟨type, acceptedAt, standsAt⟩ := List.forall₂_zip positions member
    exact (bindValue_isSome_iff genuine acceptedAt standsAt).mp (each pair member)
  · intro fits
    refine ⟨positions.length_eq, ?_⟩
    intro pair member
    obtain ⟨type, acceptedAt, standsAt⟩ := List.forall₂_zip positions member
    exact (bindValue_isSome_iff genuine acceptedAt standsAt).mpr (fits pair member)

end Store

/-! ## Resolved members -/

/-- What keeps a candidate from binding to values that its types were found
by. -/
def Candidate.Unbindable (candidate : Candidate) (values : List Value) : Prop :=
  candidate.takesContext = true ∨
    ∃ pair ∈ candidate.realParams.zip values, Store.Clashes pair.1 pair.2

namespace Scope

variable {scope : Scope} {start : ClassId} {found : Candidate}

/-- An instance of the class that is searched is an instance of the class that
declares what is found. -/
theorem isSubclass_declaringClass (reached : scope.store.Reachable)
    (object : scope.store.Bare .object) {query : Query} {id : ClassId}
    (resolved : scope.resolve query start = some found)
    (below : scope.store.isSubclass id start = true) :
    scope.store.isSubclass id found.member.declaringClass = true := by
  obtain ⟨level, visited, represents⟩ := resolve_represents resolved
  rw [reached.declaringClass (candidateIn_accepted represents).declared]
  exact Store.isSubclass_trans object below
    (Store.isSubclass_of_path (Store.ancestor_of_mem_classChain visited))

theorem bindReceiver_of_resolved (reached : scope.store.Reachable)
    (object : scope.store.Bare .object) {query : Query} {target : Value} {id : ClassId}
    (resolved : scope.resolve query start = some found)
    (runtime : target.classId? = some id) (below : scope.store.isSubclass id start = true) :
    ∃ receiver, scope.store.bindReceiver (some target) found.member = .ok receiver := by
  cases sort : found.member.isStatic with
  | true => exact ⟨none, Store.bindReceiver_of_static sort (some target)⟩
  | false =>
      have above := isSubclass_declaringClass reached object resolved below
      exact ⟨some ⟨target, id⟩,
        (Store.bindReceiver_eq_ok_iff sort).mpr ⟨target, id, rfl, runtime, above, rfl⟩⟩

/-- Only a context that the caller leaves out makes a count differ. -/
theorem Accepted.params_length {query : Query} {level : ClassId}
    (accepted : scope.Accepted query level found) :
    found.member.params.length =
      query.types.length + (if found.takesContext then 1 else 0) := by
  have counted := accepted.counted
  unfold skipsContext? at counted
  split at counted
  · rename_i same
    simpa [← Option.some.inj counted] using same
  · split at counted
    · rename_i longer
      split at counted
      · split at counted
        · simpa [← Option.some.inj counted] using longer
        · cases counted
      · cases counted
    · cases counted

theorem bindArguments_isOk_iff_of_resolved
    (genuine : ∀ kind : Primitive, scope.store.Genuine kind.wrapper)
    {name : String} {typed : TypedArguments}
    (resolved : scope.resolve ⟨name, typed.types, .coercive⟩ start = some found)
    (stands : List.Forall₂ scope.store.Stands typed.types typed.values) :
    (∃ bound, scope.store.bindArguments found.member.params typed.values = .ok bound) ↔
      ¬ found.Unbindable typed.values := by
  obtain ⟨level, _, represents⟩ := resolve_represents resolved
  have accepted := candidateIn_accepted represents
  have counts := accepted.params_length
  cases context : found.takesContext with
  | true =>
      have short : found.member.params.length ≠ typed.values.length := by
        simp only [context, if_true, stands.length_eq] at counts
        omega
      simp [Store.bindArguments_isOk_iff, Candidate.Unbindable, short, context]
  | false =>
      have admitted := accepted.admitted
      have real : found.realParams = found.member.params := by
        simp [Candidate.realParams, context]
      rw [admits, real] at admitted
      rw [Store.bindArguments_isOk_iff_of_accepted genuine admitted stands]
      simp [Candidate.Unbindable, context, real]

theorem bindCall_isOk_iff_of_resolved (reached : scope.store.Reachable)
    (object : scope.store.Bare .object)
    (genuine : ∀ kind : Primitive, scope.store.Genuine kind.wrapper)
    {target : Value} {id : ClassId} {name : String} {args : List Value}
    {typed : TypedArguments} (runtime : target.classId? = some id)
    (below : scope.store.isSubclass id start = true)
    (derived : scope.store.typeArguments args = .ok typed)
    (resolved : scope.resolve ⟨name, typed.types, .coercive⟩ start = some found) :
    (∃ bound, scope.store.bindCall (some target) found.member typed.values = .ok bound) ↔
      ¬ found.Unbindable typed.values := by
  have receives := bindReceiver_of_resolved reached object resolved runtime below
  rw [Store.bindCall_isOk_iff, and_iff_right receives]
  exact bindArguments_isOk_iff_of_resolved genuine resolved
    (Store.stands_of_typeArgumentsFrom derived)

theorem invokeInstance_of_resolved {target : Value} {name : String} {args : List Value}
    {typed : TypedArguments} (derived : scope.store.typeArguments args = .ok typed)
    (resolved : scope.resolve ⟨name, typed.types, .coercive⟩ start = some found)
    (state : RunState) :
    scope.invokeInstance start target name args state =
      scope.invoke (some target) found.member typed.values
        (state.log (scope.resolutionEvents ⟨name, typed.types, .coercive⟩ start)) := by
  simp only [invokeInstance, derived, findCompatible, findCompatible?, resolved, Option.map_some]

/-- A call by value on an instance of the searched class, once a member is found
and access to it is granted, is refused as invalid exactly if the member takes a
context or wants a primitive value where there is none.  In all other cases it
binds. -/
theorem invokeInstance_invalid_iff (reached : scope.store.Reachable)
    (object : scope.store.Bare .object)
    (genuine : ∀ kind : Primitive, scope.store.Genuine kind.wrapper)
    {target : Value} {id : ClassId} {name : String} {args : List Value}
    {typed : TypedArguments} {state : RunState} (runtime : target.classId? = some id)
    (below : scope.store.isSubclass id start = true)
    (derived : scope.store.typeArguments args = .ok typed)
    (resolved : scope.resolve ⟨name, typed.types, .coercive⟩ start = some found)
    (opened : (scope.ensureAccessible found.member state).1 = .ok ()) :
    ((∃ signature reason cause,
        (scope.invokeInstance start target name args state).1 =
          .error (.invalidArguments signature reason cause)) ↔
      found.Unbindable typed.values) ∧
    (¬ found.Unbindable typed.values →
      ∃ bound, scope.store.bindCall (some target) found.member typed.values = .ok bound) := by
  have binds :=
    bindCall_isOk_iff_of_resolved reached object genuine runtime below derived resolved
  refine ⟨?_, binds.mpr⟩
  rw [invokeInstance_of_resolved derived resolved, invoke_invalid_iff (by simpa using opened),
    binds, not_not]

end Scope

/-! ## On the small hierarchy -/

namespace Gallery

/-- A stand-in for circles, drawn on a sketch, binds to the overload for
circles. -/
theorem standIn_binds :
    scope.store.Reachable ∧ scope.store.Bare .object ∧
      (∀ kind : Primitive, scope.store.Genuine kind.wrapper) ∧
      ∃ typed found,
        scope.store.typeArguments [.object ⟨1, standIn, none⟩] = .ok typed ∧
        scope.resolve ⟨"draw", typed.types, .coercive⟩ sketch = some found ∧
        ∃ bound, scope.store.bindCall (some (.object ⟨0, sketch, none⟩)) found.member
          typed.values = .ok bound := by
  have computed :
      scope.store.supertypes .object = [] ∧
        (∀ kind ∈ Primitive.all,
          ((scope.store.class? kind.wrapper).all fun info => !info.synthetic) = true) ∧
        scope.store.declaredType standIn = circle ∧
        ((scope.resolve ⟨"draw", [.ofClass circle], .coercive⟩ sketch).any fun found =>
          found.member.isPublic && !found.takesContext &&
            found.realParams.all Ty.isReference) = true := by
    decide +kernel
  obtain ⟨bare, wrappers, declared, shaped⟩ := computed
  have genuine : ∀ kind : Primitive, scope.store.Genuine kind.wrapper := by
    intro kind info defined
    simpa [defined] using wrappers kind (Primitive.mem_all kind)
  have derived :
      scope.store.typeArguments [.object ⟨1, standIn, none⟩] =
        .ok ⟨[.ofClass circle], [.object ⟨1, standIn, none⟩]⟩ := by
    simp [Store.typeArguments, Store.typeArgumentsFrom, Store.typeArgument?, Value.classId?,
      declared, Except.map]
  obtain ⟨found, resolved, shape⟩ := (Option.any_eq_true _ _).mp shaped
  simp only [Bool.and_eq_true, Bool.not_eq_true'] at shape
  obtain ⟨⟨isOpen, direct⟩, references⟩ := shape
  refine ⟨scope_reachable, bare, genuine, _, found, derived, resolved, ?_⟩
  have opened : (scope.ensureAccessible found.member .initial).1 = .ok () := by
    rw [Scope.ensureAccessible, if_pos (by simp [RunState.accessible, isOpen])]
  apply (Scope.invokeInstance_invalid_iff scope_reachable bare genuine rfl
    (Store.isSubclass_refl _ sketch) derived resolved opened).2
  rintro (context | ⟨pair, member, clashes⟩)
  · simp [direct] at context
  · have reference := List.all_eq_true.mp references pair.1 (List.of_mem_zip member).1
    simp [clashes.1] at reference

end Gallery

end MemberDispatch
