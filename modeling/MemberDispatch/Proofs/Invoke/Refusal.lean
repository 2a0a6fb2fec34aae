import MemberDispatch.Proofs.Hierarchy.Ascent
import MemberDispatch.Proofs.Invoke.Binding
import MemberDispatch.Proofs.Invoke.Entry
import MemberDispatch.Proofs.Store.Reachable

/-!
# Refused calls

A call that does not bind is refused for the first check that fails: of the
receiver, of the number of arguments, of the arguments from left to right.  The
refusal carries a throwable of its own, which shows the member that was called
and the caller's frames, without the hidden ones.  However a call comes in, it is
refused as invalid for such a check alone.
-/

set_option autoImplicit false

namespace MemberDispatch

namespace Store

variable {store : Store} {target : Option Value} {member : Member} {args : List Value}

/-! ## The first check that fails -/

/-- The target is no obstacle: a static member takes none, and an instance member
takes an instance of its class. -/
def Receives (store : Store) (target : Option Value) (member : Member) : Prop :=
  member.isStatic = true ∨
    ∃ value id, target = some value ∧ value.classId? = some id ∧
      store.isSubclass id member.declaringClass = true

/-- What is wrong with a call: the first of its checks that fails. -/
inductive FirstFailure (store : Store) (target : Option Value) (member : Member)
    (args : List Value) : BindingFault → Prop where
  | noReceiver (onInstances : member.isStatic = false)
      (absent : target = none ∨ target = some .null) :
      FirstFailure store target member args .noReceiver
  | receiverWithoutClass {value : Value} (onInstances : member.isStatic = false)
      (given : target = some value) (present : value ≠ .null) (classless : value.classId? = none) :
      FirstFailure store target member args .receiverWithoutClass
  | notAnInstance {value : Value} {id : ClassId} (onInstances : member.isStatic = false)
      (given : target = some value) (runtime : value.classId? = some id)
      (apart : store.isSubclass id member.declaringClass = false) :
      FirstFailure store target member args .notAnInstance
  | argumentCount (receives : store.Receives target member)
      (counts : member.params.length ≠ args.length) :
      FirstFailure store target member args (.argumentCount args.length member.params.length)
  | mismatchAt {position : Nat} {pair : Ty × Value} (receives : store.Receives target member)
      (counts : member.params.length = args.length)
      (first : FirstOf (fun index => (member.params.zip args)[index]?) (¬ store.Fits ·)
        position pair) :
      FirstFailure store target member args (.mismatchAt position)

/-! ### Receivers -/

theorem receives_iff :
    store.Receives target member ↔
      ∃ receiver, store.bindReceiver target member = .ok receiver := by
  cases sort : member.isStatic with
  | true => simp [Receives, sort, bindReceiver_of_static sort]
  | false =>
      simp only [Receives, sort, Bool.false_eq_true, false_or, bindReceiver_eq_ok_iff sort]
      constructor
      · rintro ⟨value, id, given, runtime, above⟩
        exact ⟨_, value, id, given, runtime, above, rfl⟩
      · rintro ⟨_, value, id, given, runtime, above, -⟩
        exact ⟨value, id, given, runtime, above⟩

theorem bindReceiver_of_absent (onInstances : member.isStatic = false)
    (absent : target = none ∨ target = some .null) :
    store.bindReceiver target member = .error .noReceiver := by
  rcases absent with rfl | rfl <;> simp [bindReceiver, onInstances]

theorem bindReceiver_of_present (onInstances : member.isStatic = false) {value : Value}
    (present : value ≠ .null) :
    store.bindReceiver (some value) member =
      match value.classId? with
      | none => .error .receiverWithoutClass
      | some id =>
        if store.isSubclass id member.declaringClass then .ok (some ⟨value, id⟩)
        else .error .notAnInstance := by
  unfold bindReceiver
  rw [if_neg (by simp [onInstances])]
  cases value with
  | null => exact absurd rfl present
  | _ => rfl

theorem firstFailure_of_bindReceiver {reason : BindingFault}
    (failed : store.bindReceiver target member = .error reason) :
    store.FirstFailure target member args reason := by
  cases sort : member.isStatic with
  | true => simp [bindReceiver_of_static sort] at failed
  | false =>
      by_cases absent : target = none ∨ target = some .null
      · rw [bindReceiver_of_absent sort absent] at failed
        cases failed
        exact .noReceiver sort absent
      · rw [not_or] at absent
        obtain ⟨value, rfl⟩ := Option.ne_none_iff_exists'.mp absent.1
        have present : value ≠ .null := fun null => absent.2 (null ▸ rfl)
        rw [bindReceiver_of_present sort present] at failed
        cases runtime : value.classId? with
        | none =>
            rw [runtime] at failed
            cases failed
            exact .receiverWithoutClass sort rfl present runtime
        | some id =>
            simp only [runtime] at failed
            split at failed
            · cases failed
            · rename_i apart
              cases failed
              exact .notAnInstance sort rfl runtime (by simpa using apart)

/-! ### Calls -/

theorem FirstFailure.bindCall_eq {reason : BindingFault}
    (failure : store.FirstFailure target member args reason) :
    store.bindCall target member args = .error reason := by
  cases failure with
  | noReceiver onInstances absent =>
      rw [bindCall, bindReceiver_of_absent onInstances absent]
  | receiverWithoutClass onInstances given present classless =>
      rw [bindCall, given, bindReceiver_of_present onInstances present, classless]
  | notAnInstance onInstances given runtime apart =>
      have present := Value.ne_null_of_classId? runtime
      rw [bindCall, given, bindReceiver_of_present onInstances present, runtime]
      simp [apart]
  | argumentCount receives counts =>
      obtain ⟨receiver, receiverEq⟩ := receives_iff.mp receives
      rw [bindCall_eq_error_iff receiverEq, bindArguments_eq_error_iff]
      exact .inl ⟨counts, rfl⟩
  | mismatchAt receives counts first =>
      obtain ⟨receiver, receiverEq⟩ := receives_iff.mp receives
      rw [bindCall_eq_error_iff receiverEq, bindArguments_eq_error_iff]
      exact .inr ⟨counts, _, _, first, rfl⟩

theorem bindCall_eq_error_iff_firstFailure {reason : BindingFault} :
    store.bindCall target member args = .error reason ↔
      store.FirstFailure target member args reason := by
  refine ⟨fun failed => ?_, FirstFailure.bindCall_eq⟩
  cases receiverEq : store.bindReceiver target member with
  | error fault =>
      rw [bindCall, receiverEq, Except.error.injEq] at failed
      exact firstFailure_of_bindReceiver (failed ▸ receiverEq)
  | ok receiver =>
      have receives : store.Receives target member := receives_iff.mpr ⟨receiver, receiverEq⟩
      rw [bindCall_eq_error_iff receiverEq, bindArguments_eq_error_iff] at failed
      rcases failed with ⟨counts, rfl⟩ | ⟨counts, position, pair, first, rfl⟩
      · exact .argumentCount receives counts
      · exact .mismatchAt receives counts first

/-- No check fails where the target is received and as many arguments as there are
parameters fit them. -/
theorem not_firstFailure (receives : store.Receives target member)
    (counts : member.params.length = args.length)
    (fit : ∀ pair ∈ member.params.zip args, store.Fits pair) (reason : BindingFault) :
    ¬ store.FirstFailure target member args reason := by
  rw [← bindCall_eq_error_iff_firstFailure]
  obtain ⟨receiver, receiverEq⟩ := receives_iff.mp receives
  rw [bindCall_eq_error_iff receiverEq, bindArguments_eq_error_iff]
  rintro (⟨differ, -⟩ | ⟨-, position, pair, first, -⟩)
  · exact differ counts
  · exact first.holds (fit pair (List.mem_of_getElem? first.reached))

end Store

/-! ## What a refusal shows -/

/-- The throwable of a refusal: without a cause of its own, and with the frames of
the call that no hidden prefix starts, in their order. -/
structure Scope.Reports (scope : Scope) (member : Member) (reason : BindingFault)
    (cause : Throwable) : Prop where
  kind : cause.classId = .illegalArgument
  message : cause.message = some reason.message
  uncaused : cause.cause? = none
  stack : cause.stack =
    (⟨scope.store.className member.declaringClass, member.name⟩ :: scope.callSite).filter
      fun frame => ∀ start ∈ scope.hiddenFrames, ¬ start.toList <+: frame.className.toList
  /-- To hide the same frames again hides nothing more. -/
  settled : ∀ ident, cause.withVisibleFrames scope.hiddenFrames ident =
    .uncaused { cause.record with ident }

theorem Throwable.visibleFrames_eq_filter (prefixes : List String) (stack : List StackFrame) :
    visibleFrames prefixes stack =
      stack.filter fun frame => ∀ start ∈ prefixes, ¬ start.toList <+: frame.className.toList := by
  rw [visibleFrames]
  refine List.filter_congr fun frame _ => ?_
  rw [Bool.eq_iff_iff]
  simp [hidesFrame]

theorem Scope.reports_of_bindingFailure {scope : Scope} {member : Member}
    {reason given : BindingFault} {state : RunState} {signature : String} {cause : Throwable}
    (refused : (scope.bindingFailure member reason state).1 =
      .invalidArguments signature given cause) :
    signature = scope.qualifiedSignature member ∧ scope.Reports member given cause := by
  simp only [bindingFailure, Fault.invalidArguments.injEq] at refused
  obtain ⟨rfl, rfl, rfl⟩ := refused
  refine ⟨rfl, rfl, rfl, rfl, ?_, ?_⟩
  · exact Throwable.visibleFrames_eq_filter _ _
  · intro ident
    have shown : Throwable.visibleFrames scope.hiddenFrames (scope.bindingStack member) =
        scope.bindingStack member := Throwable.visibleFrames_idem _ _
    simp only [Throwable.withVisibleFrames, Throwable.stack, Throwable.record,
      Store.throwableRecord, shown]
    rfl

/-! ## Searches that find nothing -/

section Searches

variable {scope : Scope} {start : ClassId} {name : String} {types : List Ty}
  {signature : String} {reason : BindingFault} {cause : Throwable}

theorem Scope.findSpecified_ne_invalid :
    scope.findSpecified start name types ≠ .error (.invalidArguments signature reason cause) := by
  rw [findSpecified]
  split <;> simp

theorem Scope.findCompatible_ne_invalid :
    scope.findCompatible start name types ≠ .error (.invalidArguments signature reason cause) := by
  rw [findCompatible]
  split <;> simp

theorem Scope.findStatic_ne_invalid :
    scope.findStatic start name types ≠ .error (.invalidArguments signature reason cause) := by
  rw [findStatic]
  split
  · split <;> simp
  · simp

theorem Store.typeArgumentsFrom_ne_invalid {store : Store} {position : Nat} {args : List Value} :
    store.typeArgumentsFrom position args ≠
      .error (.invalidArguments signature reason cause) := by
  induction args generalizing position with
  | nil => simp [typeArgumentsFrom]
  | cons argument args ih =>
      rw [typeArgumentsFrom]
      cases store.typeArgument? argument with
      | none => simp
      | some typed =>
          dsimp only
          rw [ne_eq, map_eq_error_iff]
          exact ih

end Searches

/-! ## The ways in -/

namespace Entry

variable {scope : Scope} {entry : Entry scope} {state : RunState} {signature : String}
  {reason : BindingFault} {cause : Throwable}

theorem failure?_eq_some_iff {α : Type} {outcome : Except Fault α} {fault : Fault} :
    failure? outcome = some fault ↔ outcome = .error fault := by
  cases outcome <;> simp [failure?]

/-- An entry that finds no member to call is not refused as invalid. -/
theorem fault?_ne_invalid_of_no_request (nothing : entry.request? state = none) :
    entry.fault? state ≠ some (.invalidArguments signature reason cause) := by
  cases entry with
  | call target member args => cases nothing
  | invoke target member args => cases nothing
  | callSpecified start target name types args =>
      cases found : scope.findSpecified start name types with
      | ok member => simp [request?, found, Except.toOption] at nothing
      | error fault =>
          intro invalid
          simp only [fault?, Scope.callSpecified, found, mapError_error, CallFailure.wrapped,
            failure?, Option.some.injEq] at invalid
          exact Scope.findSpecified_ne_invalid (invalid ▸ found)
  | invokeSpecified start target name types args =>
      cases found : scope.findSpecified start name types with
      | ok member => simp [request?, found, Except.toOption] at nothing
      | error fault =>
          intro invalid
          simp only [fault?, Scope.invokeSpecified, found, failure?, Option.some.injEq] at invalid
          exact Scope.findSpecified_ne_invalid (invalid ▸ found)
  | invokeInstance start target name args =>
      cases typedEq : scope.store.typeArguments args with
      | error fault =>
          intro invalid
          simp only [fault?, Scope.invokeInstance, typedEq, failure?, Option.some.injEq] at invalid
          exact Store.typeArgumentsFrom_ne_invalid (invalid ▸ typedEq)
      | ok typed =>
          cases found : scope.findCompatible start name typed.types with
          | ok member => simp [request?, typedEq, found, Except.toOption] at nothing
          | error fault =>
              intro invalid
              simp only [fault?, Scope.invokeInstance, typedEq, found, failure?,
                Option.some.injEq] at invalid
              exact Scope.findCompatible_ne_invalid (invalid ▸ found)
  | invokeStatic start name args =>
      cases typedEq : scope.store.typeArguments args with
      | error fault =>
          intro invalid
          simp only [fault?, Scope.invokeStatic, typedEq, failure?, Option.some.injEq] at invalid
          exact Store.typeArgumentsFrom_ne_invalid (invalid ▸ typedEq)
      | ok typed =>
          cases found : scope.findStatic start name typed.types with
          | ok member => simp [request?, typedEq, found, Except.toOption] at nothing
          | error fault =>
              intro invalid
              simp only [fault?, Scope.invokeStatic, typedEq, found, failure?,
                Option.some.injEq] at invalid
              exact Scope.findStatic_ne_invalid (invalid ▸ found)
  | invokePublic start target name types args =>
      cases found : scope.store.findPublic? start name types with
      | some member => simp [request?, found] at nothing
      | none => simp [fault?, Scope.invokePublic?, found, failure?]
  | dispatch delegate within invoked args => cases nothing

/-- With a member to call, an entry is refused as invalid exactly if its call is. -/
theorem exists_call_of_request {request : Request} (asked : entry.request? state = some request) :
    ∃ start, state.Quiet start ∧ ∀ signature reason cause,
      entry.fault? state = some (.invalidArguments signature reason cause) ↔
        (scope.call request.target request.member request.args start).1 =
          .error (.refused (.invalidArguments signature reason cause)) := by
  rcases entry.run_follows state with ⟨nothing, -⟩ | ⟨other, otherAsked, follows⟩
  · cases nothing.symm.trans asked
  · cases otherAsked.symm.trans asked
    obtain ⟨start, events, quiet, faultEq, -⟩ := follows
    refine ⟨start, quiet, fun signature reason cause => ?_⟩
    rw [faultEq, failure?_eq_some_iff, Scope.mapError_wrapped_eq_invalid_iff]

theorem fault?_invalid_iff {request : Request} (asked : entry.request? state = some request) :
    (∃ signature cause,
        entry.fault? state = some (.invalidArguments signature reason cause)) ↔
      scope.grants request.member state = true ∧
        scope.store.FirstFailure request.target request.member request.args reason := by
  obtain ⟨start, quiet, refusedIff⟩ := exists_call_of_request asked
  simp only [refusedIff, Scope.call_eq_invalid_iff, Scope.grants_of_quiet quiet,
    Store.bindCall_eq_error_iff_firstFailure]
  constructor
  · rintro ⟨signature, cause, granted, failure, -⟩
    exact ⟨granted, failure⟩
  · rintro ⟨granted, failure⟩
    exact ⟨_, _, granted, failure, rfl⟩

theorem reports_of_fault? (invalid : entry.fault? state =
      some (.invalidArguments signature reason cause)) :
    ∃ request, entry.request? state = some request ∧
      signature = scope.qualifiedSignature request.member ∧
      scope.Reports request.member reason cause := by
  cases asked : entry.request? state with
  | none => exact absurd invalid (fault?_ne_invalid_of_no_request asked)
  | some request =>
      obtain ⟨start, -, refusedIff⟩ := exists_call_of_request asked
      obtain ⟨-, -, refused⟩ := Scope.call_eq_invalid_iff.mp ((refusedIff _ _ _).mp invalid)
      exact ⟨request, rfl, Scope.reports_of_bindingFailure refused⟩

/-- Whichever way a call comes in, it is refused as invalid exactly if access to its
member is granted and one of its checks fails, and the first one that fails is the
reason.  The refusal shows the member and the caller's frames that are not hidden. -/
theorem refused_for_firstFailure (entry : Entry scope) (state : RunState) :
    (∀ reason, (∃ signature cause,
          entry.fault? state = some (.invalidArguments signature reason cause)) ↔
        ∃ request, entry.request? state = some request ∧
          scope.grants request.member state = true ∧
          scope.store.FirstFailure request.target request.member request.args reason) ∧
      (∀ signature reason cause,
        entry.fault? state = some (.invalidArguments signature reason cause) →
          ∃ request, entry.request? state = some request ∧
            signature = scope.qualifiedSignature request.member ∧
            scope.Reports request.member reason cause) ∧
      ∀ request, entry.request? state = some request →
        scope.store.Receives request.target request.member →
        request.member.params.length = request.args.length →
        (∀ pair ∈ request.member.params.zip request.args, scope.store.Fits pair) →
        ∀ signature reason cause,
          entry.fault? state ≠ some (.invalidArguments signature reason cause) := by
  refine ⟨?_, fun _ _ _ => reports_of_fault?, ?_⟩
  · intro reason
    constructor
    · rintro ⟨signature, cause, invalid⟩
      obtain ⟨request, asked, -⟩ := reports_of_fault? invalid
      exact ⟨request, asked, (fault?_invalid_iff asked).mp ⟨signature, cause, invalid⟩⟩
    · rintro ⟨request, asked, granted, failure⟩
      exact (fault?_invalid_iff asked).mpr ⟨granted, failure⟩
  · intro request asked receives counts fit signature reason cause invalid
    obtain ⟨-, failure⟩ := (fault?_invalid_iff asked).mp ⟨signature, cause, invalid⟩
    exact Store.not_firstFailure receives counts fit reason failure

end Entry

/-! A sketch is asked to draw a text, from a site with a frame of the machinery. -/

namespace Gallery

open Store

def studio : Scope :=
  { scope with
    hiddenFrames := ["Machine.", "Disc"]
    callSite := [⟨"Machine.Reflection", "invoke"⟩, ⟨"Studio", "open"⟩] }

def page : Value := .object ⟨0, sketch, none⟩

def drawText (member : Member) : Entry studio := .call (some page) member [.text "disc"]

/-- What the studio is told shows the frame of the sketch and its own. -/
def refusal : Fault :=
  .invalidArguments "Sketch.draw(Shape)" (.mismatchAt 0)
    (.uncaused
      { ident := 0
        classId := .illegalArgument
        className := "java.lang.IllegalArgumentException"
        message := some (BindingFault.mismatchAt 0).message
        stack := [⟨"Sketch", "draw"⟩, ⟨"Studio", "open"⟩] })

theorem studio_refuses :
    ∃ member ∈ studio.store.members sketch, (drawText member).fault? .initial = some refusal ∧
      studio.store.FirstFailure (some page) member [.text "disc"] (.mismatchAt 0) := by
  have computed : (studio.store.members sketch).any fun member =>
      (drawText member).fault? .initial = some refusal := by
    decide +kernel
  obtain ⟨member, declared, shown⟩ := List.any_eq_true.mp computed
  have refused : (drawText member).fault? .initial = some refusal := of_decide_eq_true shown
  obtain ⟨reasons, -, -⟩ := Entry.refused_for_firstFailure (drawText member) .initial
  obtain ⟨request, asked, -, failure⟩ := (reasons _).mp ⟨_, _, refused⟩
  cases asked
  exact ⟨member, declared, refused, failure⟩

end Gallery

end MemberDispatch
