import MemberDispatch.Proofs.Hierarchy.Unwrapping
import MemberDispatch.Proofs.Invoke.Progress
import MemberDispatch.Proofs.Resolve.Suitability

/-!
# Generated arguments

An argument is matched by the declared type of its class, and then it is passed
as it is.  That is safe on every store.  The unwrap walk only climbs, wherever it
ends and also where it is given up, so that the declared type is above the class,
and a slot that takes the declared type takes the class.  Hence a list of values
fits whatever classes and arrays a member accepts for the types read off them.
-/

set_option autoImplicit false

namespace MemberDispatch

namespace Store

variable {store : Store}

theorem isSubclass_declaredType (store : Store) (id : ClassId) :
    store.isSubclass id (store.declaredType id) = true :=
  isSubclass_of_path (ancestor_declaredType store id)

theorem isAssignable_of_declaredType {target : Ty} {id : ClassId}
    (above : store.isAssignable target (.ofClass (store.declaredType id)) = true) :
    store.isAssignable target (.ofClass id) = true :=
  isAssignable_of_path (ancestor_declaredType store id) above

/-- A parameter that is a class or an array receives the value as it is. -/
def TakesWhole (store : Store) (param : Ty) (value : Value) : Prop :=
  param.isReference = true → store.bindValue param value = some value

end Store

namespace Scope

variable {scope : Scope}

theorem Passes.accepts {mode : MatchMode} {param type : Ty}
    (passes : scope.Passes mode param type) : scope.store.accepts param type = true := by
  rw [Store.accepts, Bool.or_eq_true]
  cases mode with
  | exact => exact .inl passes
  | coercive => exact passes

theorem takesWhole_of_candidate? {args : List Value} {typed : TypedArguments} {query : Query}
    {member : Member} {candidate : Candidate}
    (derived : scope.store.typeArguments args = .ok typed) (asked : query.types = typed.types)
    (accepted : scope.candidate? query member = some candidate) :
    List.Forall₂ scope.store.TakesWhole candidate.realParams typed.values := by
  obtain ⟨-, -, -, admitted⟩ := candidate?_eq_some_iff.mp accepted
  rw [asked] at admitted
  have accepts := (admits_iff.mp admitted).imp fun _ _ passes => passes.accepts
  have stands := Store.stands_of_typeArgumentsFrom derived
  refine (Store.stands_of_accepted accepts stands).imp ?_
  rintro param value ⟨type, acceptedAt, standsAt⟩ reference
  exact Store.bindValue_of_accepted reference acceptedAt standsAt

/-- On every store, cyclic or not, a class is a subclass of its declared type,
unwrapping twice is unwrapping once, and whatever takes the declared type takes
the class.  So the types that are read off values never let a class or an array
accept what the value does not fit. -/
theorem declaredType_safe (scope : Scope) :
    (∀ id, scope.store.isSubclass id (scope.store.declaredType id) = true) ∧
      (∀ id, scope.store.declaredType (scope.store.declaredType id) =
        scope.store.declaredType id) ∧
      (∀ id target,
        scope.store.isAssignable target (.ofClass (scope.store.declaredType id)) = true →
          scope.store.isAssignable target (.ofClass id) = true) ∧
      ∀ args typed name mode member candidate, scope.store.typeArguments args = .ok typed →
        scope.candidate? ⟨name, typed.types, mode⟩ member = some candidate →
          List.Forall₂ scope.store.TakesWhole candidate.realParams typed.values := by
  refine ⟨Store.isSubclass_declaredType scope.store,
    Store.declaredType_declaredType scope.store, ?_, ?_⟩
  · intro id target above
    exact Store.isAssignable_of_declaredType above
  · intro args typed name mode member candidate derived accepted
    exact takesWhole_of_candidate? derived rfl accepted

end Scope

/-! ## A masked ball

A veil is generated for a mask, and a mask for a dancer, who is a guest.  A mirror
and its image are generated for each other, a ghost for a class that nobody has
defined, and a blank for nothing. -/

namespace Ball

open Store

def guest : ClassId := ⟨26⟩
def dancer : ClassId := ⟨27⟩
def mask : ClassId := ⟨28⟩
def veil : ClassId := ⟨29⟩
def mirror : ClassId := ⟨30⟩
def image : ClassId := ⟨31⟩
def ghost : ClassId := ⟨32⟩
def blank : ClassId := ⟨33⟩
def host : ClassId := ⟨34⟩
def stranger : ClassId := ⟨99⟩

def generated (name : String) (superclass : ClassId) : ClassDef :=
  { platformClass name (some superclass) [] with synthetic := true }

def waltz : MemberDef :=
  { name := "waltz", params := [.ofClass dancer, .ofClass guest], returns := .void,
    isStatic := false, visibility := .publicAccess, body := some (.give .void) }

def classes : List ClassDef :=
  [platformInterface "Guest",
    platformClass "Dancer" (some .object) [guest],
    generated "Mask" dancer,
    generated "Veil" mask,
    generated "Mirror" image,
    generated "Image" mirror,
    generated "Ghost" stranger,
    generated "Blank" .object,
    { platformClass "Host" (some .object) [] with members := [waltz] }]

def scope : Scope := .ofStore (platform.addAll classes) []

def veiled : Value := .object ⟨0, veil, none⟩

/-- A veiled dancer is matched as a dancer and waltzes in the veil, with a partner
of whom only the type is stated.  A mirror stays a mirror, a ghost is matched by a
class that nobody has defined, and a blank by its own. -/
theorem veiled_waltzes :
    (scope.store.declaredType veil = dancer ∧ scope.store.declaredType mirror = mirror ∧
        scope.store.declaredType ghost = stranger ∧ scope.store.declaredType blank = blank) ∧
      scope.store.isSubclass ghost stranger = true ∧
      scope.store.declaredType stranger = stranger ∧
      scope.store.isAssignable (.ofClass guest) (.ofClass dancer) = true ∧
      scope.store.isAssignable (.ofClass guest) (.ofClass veil) = true ∧
      ∃ typed member candidate,
        scope.store.typeArguments [veiled, .typeToken (.ofClass guest)] = .ok typed ∧
        scope.candidate? ⟨"waltz", typed.types, .coercive⟩ member = some candidate ∧
        candidate.realParams = [.ofClass dancer, .ofClass guest] ∧
        scope.store.bindValue (.ofClass dancer) veiled = some veiled ∧
        scope.store.bindValue (.ofClass guest) .null = some .null := by
  have computed :
      (scope.store.declaredType veil = dancer ∧ scope.store.declaredType mirror = mirror ∧
          scope.store.declaredType ghost = stranger ∧
          scope.store.declaredType blank = blank) ∧
        scope.store.isAssignable (.ofClass guest) (.ofClass dancer) = true ∧
        ((scope.store.members host).findSome?
            (scope.candidate? ⟨"waltz", [.ofClass dancer, .ofClass guest], .coercive⟩)).any
          (fun found => found.realParams = [.ofClass dancer, .ofClass guest]) = true := by
    decide +kernel
  obtain ⟨declared, dancing, invited⟩ := computed
  obtain ⟨candidate, found, real⟩ := (Option.any_eq_true _ _).mp invited
  obtain ⟨member, -, accepted⟩ := List.exists_of_findSome?_eq_some found
  have realParams : candidate.realParams = [.ofClass dancer, .ofClass guest] := by
    simpa using real
  have derived :
      scope.store.typeArguments [veiled, .typeToken (.ofClass guest)] =
        .ok ⟨[.ofClass dancer, .ofClass guest], [veiled, .null]⟩ := by
    simp [veiled, typeArguments, typeArgumentsFrom, typeArgument?, Value.classId?, declared.1,
      Except.map]
  obtain ⟨above, twice, fits, whole⟩ := Scope.declaredType_safe scope
  have ghostBelow := above ghost
  have ghostTwice := twice ghost
  rw [declared.2.2.1] at ghostBelow ghostTwice
  have veilFits := fits veil (.ofClass guest)
  rw [declared.1] at veilFits
  have taken := whole _ _ _ _ _ _ derived accepted
  rw [realParams] at taken
  cases taken with
  | cons atDancer rest =>
      cases rest with
      | cons atGuest _ =>
          exact ⟨declared, ghostBelow, ghostTwice, dancing, veilFits dancing, _, member,
            candidate, derived, accepted, realParams, atDancer rfl, atGuest rfl⟩

end Ball

end MemberDispatch
