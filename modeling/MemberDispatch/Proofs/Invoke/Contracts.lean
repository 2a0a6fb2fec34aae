import MemberDispatch.Invoke.ByName
import MemberDispatch.Proofs.Hierarchy.Ancestry
import MemberDispatch.Proofs.Invoke.Call
import MemberDispatch.Proofs.Store.Reachable

/-!
# One computation under two contracts

A call that forwards what a member raises and a call that wraps it run the same
body on the same arguments and end in the same state, but for one event.  They
return the same values and are refused by the same faults, and what one of them
raises is what the other one carries, of the kind that its class has.
-/

set_option autoImplicit false

namespace MemberDispatch

/-! ## Kinds of what is raised -/

namespace Store

def throwableClasses : List ClassId :=
  [.throwable, .error, .exception, .runtimeException, .illegalArgument, .illegalState,
    .abstractMethodError, .inputOutput]

/-- The platform's throwable classes are as the platform defines them. -/
def KeepsThrowables (store : Store) : Prop :=
  ∀ id ∈ throwableClasses, store.class? id = platform.class? id

theorem KeepsThrowables.throwableKind_abstractMethodError {store : Store}
    (keeps : store.KeepsThrowables) : store.throwableKind .abstractMethodError = .error := by
  have kept : store.class? .abstractMethodError = platform.class? .abstractMethodError :=
    keeps _ (by decide)
  have onPlatform : ClassId.error ∈ platform.supertypes .abstractMethodError := by
    decide +kernel
  have edge : store.DirectSupertype .abstractMethodError .error := by
    rw [supertypes, ← kept] at onPlatform
    exact onPlatform
  rw [throwableKind, if_pos (isSubclass_of_path (.single edge))]

end Store

namespace Scope

variable {scope : Scope}

/-- What a bound call raises, and as what kind. -/
inductive Raises (scope : Scope) (bound : Store.BoundCall) (state : RunState) :
    Throwable → ThrowableKind → Prop where
  | bodiless (none : bound.implementation.body = none) :
      Raises scope bound state (scope.abstractFailure bound.implementation state).1 .error
  | body {body : Body} {thrown : Throwable} (runs : bound.implementation.body = some body)
      (raised : (body.run bound.record.receiver bound.record.args
        (state.recordCall bound.record)).1 = .error thrown) :
      Raises scope bound state thrown (scope.store.throwableKind thrown.classId)

theorem Raises.kind_eq (keeps : scope.store.KeepsThrowables) {bound : Store.BoundCall}
    {state : RunState} {thrown : Throwable} {kind : ThrowableKind}
    (raises : scope.Raises bound state thrown kind) :
    kind = scope.store.throwableKind thrown.classId := by
  cases raises with
  | bodiless _ => exact keeps.throwableKind_abstractMethodError.symm
  | body _ _ => rfl

variable {target : Option Value} {member : Member} {args : List Value} {state : RunState}

/-- A call raises only what the call that it has bound raises. -/
theorem raises_of_call {thrown : Throwable} {kind : ThrowableKind}
    (raised : (scope.call target member args state).1 = .error (.raised thrown kind)) :
    ∃ bound, scope.store.bindCall target member args = .ok bound ∧
      scope.Raises bound (scope.ensureAccessible member state).2 thrown kind := by
  have ends := scope.call_ends target member args state
  generalize scope.call target member args state = result at ends raised
  cases ends with
  | denied closed => cases raised
  | unbound granted failed => cases raised
  | bodiless granted binds none =>
      cases raised
      exact ⟨_, binds, .bodiless none⟩
  | @ran bound body granted binds runs =>
      cases ended : (body.run bound.record.receiver bound.record.args
          ((scope.ensureAccessible member state).2.recordCall bound.record)).1 with
      | ok value => simp [ended] at raised
      | error other =>
          simp only [ended] at raised
          cases raised
          exact ⟨bound, binds, .body runs ended⟩

theorem thrown?_of_call_refused {fault : Fault}
    (refused : (scope.call target member args state).1 = .error (.refused fault)) :
    fault.thrown? = none := by
  have ends := scope.call_ends target member args state
  generalize scope.call target member args state = result at ends refused
  cases ends with
  | denied closed =>
      cases refused
      rfl
  | unbound granted failed =>
      cases refused
      rfl
  | bodiless granted binds none => cases refused
  | ran granted binds runs =>
      generalize (Body.run _ _ _ _).1 = outcome at refused
      cases outcome <;> cases refused

end Scope

/-! ## Packaging -/

theorem CallFailure.kind_wrapped (failure : CallFailure) :
    failure.wrapped.kind = failure.kind := by
  cases failure with
  | raised thrown kind => exact Fault.kind_ofRaised thrown kind
  | refused fault => rfl

theorem Fault.ofRaised_inj {thrown other : Throwable} {kind otherKind : ThrowableKind} :
    Fault.ofRaised thrown kind = .ofRaised other otherKind ↔
      thrown = other ∧ kind = otherKind := by
  cases kind <;> cases otherKind <;> simp [ofRaised]

/-- How a call ends under the contract that wraps and under the one that
forwards: alike, but for the packaging of a failure. -/
structure Packaged (store : Store) (wrapping : Except Fault Value × RunState)
    (forwarding : Except CallFailure Value × RunState) : Prop where
  returns : ∀ value, wrapping.1 = .ok value ↔ forwarding.1 = .ok value
  /-- Faults of the dispatcher are the same. -/
  refuses : ∀ fault, wrapping.1 = .error fault ∧ fault.thrown? = none ↔
    forwarding.1 = .error (.refused fault)
  /-- What is raised is the same object. -/
  raises : ∀ thrown kind, wrapping.1 = .error (.ofRaised thrown kind) ↔
    forwarding.1 = .error (.raised thrown kind)
  kinds : ∀ fault failure, wrapping.1 = .error fault → forwarding.1 = .error failure →
    fault.kind = failure.kind ∧ fault.thrown? = failure.thrown?
  classified : ∀ thrown kind, forwarding.1 = .error (.raised thrown kind) →
    kind = store.throwableKind thrown.classId
  /-- The same bodies ran, on the same arguments, and the same members are
  accessible. -/
  leaves : ∃ events, wrapping.2 = forwarding.2.log events

/-- Whatever wraps the outcome of a call whose refusals carry no throwable of a
member and whose throwables are classified is a packaging of it. -/
theorem packaged_of_wrapped {store : Store} {wrapping : Except Fault Value × RunState}
    {forwarding : Except CallFailure Value × RunState}
    (wrapped : wrapping.1 = forwarding.1.mapError CallFailure.wrapped)
    (refused : ∀ fault, forwarding.1 = .error (.refused fault) → fault.thrown? = none)
    (classified : ∀ thrown kind, forwarding.1 = .error (.raised thrown kind) →
      kind = store.throwableKind thrown.classId)
    (leaves : ∃ events, wrapping.2 = forwarding.2.log events) :
    Packaged store wrapping forwarding := by
  obtain ⟨outcome, after⟩ := forwarding
  cases outcome with
  | ok value =>
      exact
        { returns := by simp [wrapped]
          refuses := by simp [wrapped]
          raises := by simp [wrapped]
          kinds := by simp
          classified
          leaves }
  | error failure =>
      have wrappedEq : wrapping.1 = .error failure.wrapped := wrapped
      cases failure with
      | refused fault =>
          have engine : fault.thrown? = none := refused fault rfl
          have notRaised : ∀ thrown kind, fault ≠ .ofRaised thrown kind := by
            rintro thrown kind rfl
            simp [Fault.thrown?_ofRaised] at engine
          exact
            { returns := by simp [wrappedEq]
              refuses := by
                intro other
                simp only [wrappedEq, CallFailure.wrapped, Except.error.injEq,
                  CallFailure.refused.injEq, and_iff_left_iff_imp]
                rintro rfl
                exact engine
              raises := by simp [wrappedEq, CallFailure.wrapped, notRaised]
              kinds := by
                rintro other failure otherEq failureEq
                cases failureEq
                cases wrappedEq.symm.trans otherEq
                exact ⟨rfl, engine⟩
              classified
              leaves }
      | raised thrown kind =>
          exact
            { returns := by simp [wrappedEq]
              refuses := by
                intro other
                simp only [wrappedEq, Except.error.injEq, reduceCtorEq, iff_false, not_and]
                rintro rfl
                simp [CallFailure.wrapped, Fault.thrown?_ofRaised]
              raises := by
                simp [wrappedEq, CallFailure.wrapped, Fault.ofRaised_inj]
              kinds := by
                rintro other failure otherEq failureEq
                cases failureEq
                cases wrappedEq.symm.trans otherEq
                exact ⟨CallFailure.kind_wrapped _, Fault.thrown?_ofRaised thrown kind⟩
              classified
              leaves }

namespace Scope

variable {scope : Scope} {target : Option Value} {args : List Value}

theorem kind_of_call_raised (keeps : scope.store.KeepsThrowables) {member : Member}
    {state : RunState} {thrown : Throwable} {kind : ThrowableKind}
    (raised : (scope.call target member args state).1 = .error (.raised thrown kind)) :
    kind = scope.store.throwableKind thrown.classId := by
  obtain ⟨bound, _, raises⟩ := raises_of_call raised
  exact raises.kind_eq keeps

theorem packaged_invoke_call (keeps : scope.store.KeepsThrowables) (target : Option Value)
    (member : Member) (args : List Value) (state : RunState) :
    Packaged scope.store (scope.invoke target member args state)
      (scope.call target member args state) :=
  packaged_of_wrapped outcome_invoke (fun _ => thrown?_of_call_refused)
    (fun _ _ => kind_of_call_raised keeps) (state_invoke scope target member args state)

/-- The two ways to call a member are the same call up to the packaging of
failures; and what they raise is what the bound call raises. -/
theorem invoke_packages_call (keeps : scope.store.KeepsThrowables) (target : Option Value)
    (member : Member) (args : List Value) (state : RunState) :
    Packaged scope.store (scope.invoke target member args state)
        (scope.call target member args state) ∧
      ∀ thrown kind, (scope.call target member args state).1 = .error (.raised thrown kind) →
        ∃ bound, scope.store.bindCall target member args = .ok bound ∧
          scope.Raises bound (scope.ensureAccessible member state).2 thrown kind :=
  ⟨packaged_invoke_call keeps target member args state, fun _ _ => raises_of_call⟩

/-- The same holds of members that are found by their types first. -/
theorem packaged_invokeSpecified (keeps : scope.store.KeepsThrowables) (start : ClassId)
    (target : Option Value) (name : String) (types : List Ty) (args : List Value)
    (state : RunState) :
    Packaged scope.store (scope.invokeSpecified start target name types args state)
      (scope.callSpecified start target name types args state) := by
  rw [invokeSpecified, callSpecified]
  cases found : scope.findSpecified start name types with
  | ok member => exact packaged_invoke_call keeps target member args _
  | error fault =>
      have notFound : fault = .specifiedNotFound name (scope.describe types) := by
        rw [findSpecified] at found
        split at found
        · cases found
        · exact (Except.error.inj found).symm
      apply packaged_of_wrapped
      · rfl
      · rintro other refused
        cases refused
        cases notFound
        rfl
      · rintro thrown kind raised
        cases raised
      · exact ⟨[], (RunState.log_nil _).symm⟩

end Scope

/-! ## A press

Printing raises a checked exception, and folding is left abstract. -/

namespace Press

open Store

def press : ClassId := ⟨26⟩

def jam : Throwable :=
  .uncaused ⟨7, .inputOutput, "java.io.IOException", some "paper jam", []⟩

def operation (name : String) (body : Option Body) : MemberDef :=
  { name, params := [], returns := .void, isStatic := false, visibility := .packageAccess, body }

def definition : ClassDef :=
  { platformClass "Press" (some .object) [] with
    members := [operation "print" (some (.raise jam)), operation "fold" none] }

def store : Store := (platform.add definition).2

def scope : Scope := .ofStore store []

def item : Value := .object ⟨0, press, none⟩

theorem store_keepsThrowables : store.KeepsThrowables := by
  have computed : platform.idOf? definition.name = none ∧
      ∀ id ∈ throwableClasses, id.index < platform.size := by
    decide +kernel
  intro id listed
  rw [store]
  exact class?_add_of_unknown computed.1 (computed.2 id listed)

theorem scope_keepsThrowables : scope.store.KeepsThrowables := by
  simp only [scope, Scope.ofStore]
  exact store_keepsThrowables

/-- The jam is forwarded as it is and wrapped as undeclared. -/
theorem print_packaged :
    scope.store.KeepsThrowables ∧
      ∃ print ∈ scope.store.members press,
        (scope.call (some item) print [] .initial).1 = .error (.raised jam .checked) ∧
        (scope.invoke (some item) print [] .initial).1 = .error (.undeclaredChecked jam) ∧
        (Fault.undeclaredChecked jam).kind =
          .targetRaised (scope.store.throwableKind jam.classId) := by
  have computed :
      ((scope.store.members press).any fun print =>
        match (scope.call (some item) print [] .initial).1 with
        | .error (.raised thrown kind) => thrown = jam && kind = .checked
        | _ => false) = true := by
    decide +kernel
  obtain ⟨print, declared, shown⟩ := List.any_eq_true.mp computed
  split at shown
  · rename_i thrown kind forwarded
    simp only [Bool.and_eq_true, decide_eq_true_eq] at shown
    obtain ⟨rfl, rfl⟩ := shown
    have packaged :=
      (Scope.invoke_packages_call scope_keepsThrowables (some item) print [] .initial).1
    refine ⟨scope_keepsThrowables, print, declared, forwarded,
      (packaged.raises jam .checked).mpr forwarded, ?_⟩
    rw [← packaged.classified jam .checked forwarded]
    rfl
  · cases shown

end Press

end MemberDispatch
