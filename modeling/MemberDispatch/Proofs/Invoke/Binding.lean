import Mathlib.Data.List.Forall2
import MemberDispatch.Invoke.Binding
import MemberDispatch.Proofs.Hierarchy.Ascent
import MemberDispatch.Proofs.Outcome
import MemberDispatch.Proofs.Value.Widening

/-!
# What binding passes on

An instance member binds exactly the targets of its class.  A list of arguments
binds exactly when each of them binds to its parameter, and then yields the
bound values in order; otherwise it is refused for its length, or for the first
argument that does not fit.  What a parameter receives is of its own kind, or is
`null`, or is the argument itself, of a class that is assignable to the
parameter.
-/

set_option autoImplicit false

namespace MemberDispatch

theorem Value.ne_null_of_classId? {value : Value} {id : ClassId}
    (runtime : value.classId? = some id) : value ≠ .null := by
  rintro rfl
  cases runtime

namespace Store

variable {store : Store}

/-! ## Receivers -/

theorem bindReceiver_of_static {member : Member} (onClass : member.isStatic = true)
    (target : Option Value) : store.bindReceiver target member = .ok none := by
  simp only [bindReceiver, onClass, if_true]

theorem bindReceiver_eq_ok_iff {member : Member} (onInstances : member.isStatic = false)
    {target : Option Value} {receiver : Option BoundReceiver} :
    store.bindReceiver target member = .ok receiver ↔
      ∃ value id, target = some value ∧ value.classId? = some id ∧
        store.isSubclass id member.declaringClass = true ∧ receiver = some ⟨value, id⟩ := by
  unfold bindReceiver
  rw [if_neg (by simp [onInstances])]
  split
  · simp
  · simp [Value.classId?]
  · rename_i value present
    cases runtime : value.classId? with
    | none => simp [runtime]
    | some id =>
        simp only [Option.some.injEq]
        constructor
        · intro bound
          split at bound
          · rename_i above
            exact ⟨value, id, rfl, runtime, above, (Except.ok.inj bound).symm⟩
          · simp at bound
        · rintro ⟨same, sameId, rfl, runtimeEq, above, rfl⟩
          cases Option.some.inj (runtime.symm.trans runtimeEq)
          rw [if_pos above]

/-! ## Single arguments -/

/-- What a parameter may receive of an argument. -/
inductive Received (store : Store) : Ty → Value → Value → Prop where
  | widened {kind : Primitive} {argument value : Value}
      (widens : argument.widenTo kind = some value) (kindExact : value.primitive? = some kind) :
      Received store (.primitive kind) argument value
  | null {param : Ty} (reference : param.isReference = true) :
      Received store param .null .null
  | unchanged {param : Ty} {argument : Value} {id : ClassId}
      (reference : param.isReference = true) (runtime : argument.classId? = some id)
      (assignable : store.isAssignable param (.ofClass id) = true) :
      Received store param argument argument

theorem bindValue_reference {param : Ty} (reference : param.isReference = true)
    {argument : Value} (present : argument ≠ .null) :
    store.bindValue param argument =
      argument.classId?.bind fun id =>
        if store.isAssignable param (.ofClass id) = true then some argument else none := by
  cases param with
  | void => simp [Ty.isReference] at reference
  | primitive kind => simp [Ty.isReference] at reference
  | ofClass target =>
      cases argument <;> first | exact absurd rfl present | rfl
  | array component =>
      cases argument <;> first | exact absurd rfl present | rfl

theorem bindValue_null {param : Ty} (reference : param.isReference = true) :
    store.bindValue param .null = some .null := by
  cases param <;> simp [Ty.isReference] at reference <;> rfl

theorem received_of_bindValue {param : Ty} {argument value : Value}
    (bound : store.bindValue param argument = some value) :
    store.Received param argument value := by
  cases kind : param.isReference with
  | false =>
      cases param with
      | void => simp [bindValue] at bound
      | primitive kind =>
          rw [bindValue] at bound
          exact .widened bound (Value.primitive?_of_widenTo bound)
      | ofClass id => simp [Ty.isReference] at kind
      | array component => simp [Ty.isReference] at kind
  | true =>
      by_cases absent : argument = .null
      · subst absent
        rw [bindValue_null kind, Option.some.injEq] at bound
        exact bound ▸ .null kind
      · rw [bindValue_reference kind absent] at bound
        obtain ⟨id, runtime, checked⟩ := Option.bind_eq_some_iff.mp bound
        rw [Option.ite_none_right_eq_some, Option.some.injEq] at checked
        obtain ⟨assignable, rfl⟩ := checked
        exact .unchanged kind runtime assignable

theorem bindValue_eq_some_iff {param : Ty} {argument value : Value} :
    store.bindValue param argument = some value ↔ store.Received param argument value := by
  refine ⟨received_of_bindValue, ?_⟩
  intro received
  cases received with
  | widened widens _ => exact widens
  | null reference => exact bindValue_null reference
  | unchanged reference runtime assignable =>
      rw [bindValue_reference reference (Value.ne_null_of_classId? runtime), runtime,
        Option.bind_some, if_pos assignable]

/-- A parameter receives something of its argument. -/
def Fits (store : Store) (pair : Ty × Value) : Prop :=
  ∃ value, store.Received pair.1 pair.2 value

theorem not_fits_iff {pair : Ty × Value} :
    ¬ store.Fits pair ↔ store.bindValue pair.1 pair.2 = none := by
  simp only [Fits, ← bindValue_eq_some_iff, Option.eq_none_iff_forall_ne_some, not_exists, ne_eq]

/-! ## Lists of arguments -/

theorem bindFrom_eq_ok_iff {position : Nat} {params : List Ty} {args values : List Value} :
    store.bindFrom position params args = .ok values ↔
      List.Forall₂
        (fun (pair : Ty × Value) value => store.bindValue pair.1 pair.2 = some value)
        (params.zip args) values := by
  induction params generalizing position args values with
  | nil => simp [bindFrom, eq_comm]
  | cons param params ih =>
      cases args with
      | nil => simp [bindFrom, eq_comm]
      | cons argument args =>
          rw [bindFrom, List.zip_cons_cons, List.forall₂_cons_left_iff]
          cases bound : store.bindValue param argument with
          | none => simp
          | some value =>
              constructor
              · intro mapped
                obtain ⟨later, rest, rfl⟩ := exists_of_map_eq_ok mapped
                exact ⟨value, later, rfl, ih.mp rest, rfl⟩
              · rintro ⟨first, later, firstEq, rest, rfl⟩
                cases Option.some.inj firstEq
                rw [ih.mpr rest]
                rfl

theorem bindArguments_eq_ok_iff {params : List Ty} {args values : List Value} :
    store.bindArguments params args = .ok values ↔
      params.length = args.length ∧
        List.Forall₂
          (fun (pair : Ty × Value) value => store.bindValue pair.1 pair.2 = some value)
          (params.zip args) values := by
  rw [bindArguments]
  by_cases counts : params.length = args.length
  · rw [if_pos counts, bindFrom_eq_ok_iff]
    simp [counts]
  · rw [if_neg counts]
    simp [counts]

/-- Arguments bind when their count agrees and each binds by itself. -/
theorem bindArguments_isOk_iff {params : List Ty} {args : List Value} :
    (∃ values, store.bindArguments params args = .ok values) ↔
      params.length = args.length ∧
        ∀ pair ∈ params.zip args, ∃ value, store.bindValue pair.1 pair.2 = some value := by
  simp only [bindArguments_eq_ok_iff, exists_and_left]
  apply and_congr_right
  intro _
  constructor
  · rintro ⟨values, bound⟩ pair member
    obtain ⟨position, within, rfl⟩ := List.mem_iff_getElem.mp member
    exact ⟨_, bound.get within (bound.length_eq ▸ within)⟩
  · intro each
    exact ⟨_, (List.forall₂_map_right_iff (f := fun pair : Ty × Value =>
      (store.bindValue pair.1 pair.2).getD .null)).mpr
        (List.forall₂_same.mpr fun pair member => by
          obtain ⟨value, bound⟩ := each pair member
          rw [bound, Option.getD_some])⟩

theorem bindFrom_eq_error_iff {position : Nat} {params : List Ty} {args : List Value}
    {reason : BindingFault} :
    store.bindFrom position params args = .error reason ↔
      ∃ index pair, FirstOf (fun index => (params.zip args)[index]?) (¬ store.Fits ·) index pair ∧
        reason = .mismatchAt (position + index) := by
  induction params generalizing position args with
  | nil =>
      simp only [bindFrom, reduceCtorEq, false_iff, not_exists, not_and]
      intro index pair first
      simpa using first.reached
  | cons param params ih =>
      cases args with
      | nil =>
          simp only [bindFrom, reduceCtorEq, false_iff, not_exists, not_and]
          intro index pair first
          simpa using first.reached
      | cons argument args =>
          rw [bindFrom]
          simp only [List.zip_cons_cons, firstOf_cons]
          cases bound : store.bindValue param argument with
          | none =>
              have fails : ¬ store.Fits (param, argument) := not_fits_iff.mpr bound
              simp [fails, eq_comm]
          | some value =>
              have fits : store.Fits (param, argument) := ⟨value, received_of_bindValue bound⟩
              dsimp only
              rw [map_eq_error_iff, ih]
              constructor
              · rintro ⟨later, pair, first, rfl⟩
                exact ⟨later + 1, pair, .inr ⟨not_not.mpr fits, later, rfl, first⟩, by
                  rw [Nat.add_assoc, Nat.add_comm 1]⟩
              · rintro ⟨index, pair, ⟨fails, -⟩ | ⟨-, later, rfl, first⟩, rfl⟩
                · exact absurd fits fails
                · exact ⟨later, pair, first, by rw [Nat.add_assoc, Nat.add_comm 1]⟩

/-- A list is refused for its length, or for the first argument that does not fit. -/
theorem bindArguments_eq_error_iff {params : List Ty} {args : List Value}
    {reason : BindingFault} :
    store.bindArguments params args = .error reason ↔
      params.length ≠ args.length ∧ reason = .argumentCount args.length params.length ∨
        params.length = args.length ∧ ∃ position pair,
          FirstOf (fun index => (params.zip args)[index]?) (¬ store.Fits ·) position pair ∧
            reason = .mismatchAt position := by
  rw [bindArguments]
  by_cases counts : params.length = args.length
  · rw [if_pos counts, bindFrom_eq_error_iff]
    simp only [counts, ne_eq, not_true_eq_false, false_and, true_and, false_or, Nat.zero_add]
  · rw [if_neg counts]
    simp [counts, eq_comm]

/-- Only a list of the wrong length is refused for its length. -/
theorem bindArguments_eq_argumentCount_iff {params : List Ty} {args : List Value}
    {given expected : Nat} :
    store.bindArguments params args = .error (.argumentCount given expected) ↔
      params.length ≠ args.length ∧ given = args.length ∧ expected = params.length := by
  simp [bindArguments_eq_error_iff]

/-- Each position of a bound list holds what its parameter received. -/
theorem received_of_bindArguments {params : List Ty} {args values : List Value}
    (bound : store.bindArguments params args = .ok values) :
    values.length = params.length ∧
      ∀ (position : Nat) (param : Ty), params[position]? = some param →
        ∃ argument value, args[position]? = some argument ∧ values[position]? = some value ∧
          store.Received param argument value := by
  obtain ⟨counts, each⟩ := bindArguments_eq_ok_iff.mp bound
  have zipped : (params.zip args).length = params.length := by
    rw [List.length_zip]
    omega
  have lengths : values.length = params.length := each.length_eq ▸ zipped
  refine ⟨lengths, ?_⟩
  intro position param present
  obtain ⟨within, paramEq⟩ := List.getElem?_eq_some_iff.mp present
  have withinArgs : position < args.length := counts ▸ within
  have withinValues : position < values.length := lengths ▸ within
  have received := each.get (zipped.symm ▸ within) withinValues
  refine ⟨args[position], values[position], List.getElem?_eq_getElem withinArgs,
    List.getElem?_eq_getElem withinValues, ?_⟩
  simp only [List.get_eq_getElem, List.getElem_zip, paramEq] at received
  exact received_of_bindValue received

/-! ## Calls -/

theorem bindCall_eq_ok_iff {target : Option Value} {member : Member} {args : List Value}
    {bound : BoundCall} :
    store.bindCall target member args = .ok bound ↔
      store.bindReceiver target member = .ok bound.receiver ∧
        store.bindArguments member.params args = .ok bound.args ∧
        bound.implementation =
          match bound.receiver with
          | none => member
          | some receiver => store.selectOverride receiver.classId member := by
  rw [bindCall]
  cases receiverEq : store.bindReceiver target member with
  | error fault => simp
  | ok receiver =>
      cases argsEq : store.bindArguments member.params args with
      | error fault => simp
      | ok values =>
          obtain ⟨boundReceiver, boundArgs, implementation⟩ := bound
          simp only [Except.ok.injEq, BoundCall.mk.injEq]
          constructor
          · rintro ⟨rfl, rfl, rfl⟩
            exact ⟨rfl, rfl, rfl⟩
          · rintro ⟨rfl, rfl, rfl⟩
            exact ⟨rfl, rfl, rfl⟩

/-- Once the receiver is bound, a call fails exactly as its arguments do. -/
theorem bindCall_eq_error_iff {target : Option Value} {member : Member} {args : List Value}
    {receiver : Option BoundReceiver} {fault : BindingFault}
    (receives : store.bindReceiver target member = .ok receiver) :
    store.bindCall target member args = .error fault ↔
      store.bindArguments member.params args = .error fault := by
  rw [bindCall, receives]
  cases store.bindArguments member.params args <;> simp

theorem bindCall_isOk_iff {target : Option Value} {member : Member} {args : List Value} :
    (∃ bound, store.bindCall target member args = .ok bound) ↔
      (∃ receiver, store.bindReceiver target member = .ok receiver) ∧
        ∃ values, store.bindArguments member.params args = .ok values := by
  constructor
  · rintro ⟨bound, call⟩
    obtain ⟨receiverEq, argsEq, _⟩ := bindCall_eq_ok_iff.mp call
    exact ⟨⟨_, receiverEq⟩, ⟨_, argsEq⟩⟩
  · rintro ⟨⟨receiver, receiverEq⟩, ⟨values, argsEq⟩⟩
    rw [bindCall, receiverEq, argsEq]
    exact ⟨_, rfl⟩

end Store

end MemberDispatch
