import MemberDispatch.Invoke.Arguments
import MemberDispatch.Invoke.Call
import MemberDispatch.Resolve.PublicLookup
import MemberDispatch.Resolve.Search

/-!
# Calls by name

A member is resolved by explicit parameter types or by the types of the
arguments, and then called.
-/

set_option autoImplicit false

namespace MemberDispatch.Scope

def invokeSpecified (scope : Scope) (start : ClassId) (target : Option Value)
    (name : String) (types : List Ty) (args : List Value) (state : RunState) :
    Except Fault Value × RunState :=
  let state := state.log (scope.resolutionEvents ⟨name, types, .exact⟩ start)
  match scope.findSpecified start name types with
  | .error fault => (.error fault, state)
  | .ok member => scope.invoke target member args state

def callSpecified (scope : Scope) (start : ClassId) (target : Option Value)
    (name : String) (types : List Ty) (args : List Value) (state : RunState) :
    Except CallFailure Value × RunState :=
  let state := state.log (scope.resolutionEvents ⟨name, types, .exact⟩ start)
  match scope.findSpecified start name types with
  | .error fault => (.error (.refused fault), state)
  | .ok member => scope.call target member args state

def invokeInstance (scope : Scope) (start : ClassId) (target : Value) (name : String)
    (args : List Value) (state : RunState) : Except Fault Value × RunState :=
  match scope.store.typeArguments args with
  | .error fault => (.error fault, state)
  | .ok typed =>
    let state := state.log (scope.resolutionEvents ⟨name, typed.types, .coercive⟩ start)
    match scope.findCompatible start name typed.types with
    | .error fault => (.error fault, state)
    | .ok member => scope.invoke (some target) member typed.values state

def invokeStatic (scope : Scope) (start : ClassId) (name : String) (args : List Value)
    (state : RunState) : Except Fault Value × RunState :=
  match scope.store.typeArguments args with
  | .error fault => (.error fault, state)
  | .ok typed =>
    let state := state.log (scope.resolutionEvents ⟨name, typed.types, .coercive⟩ start)
    match scope.findStatic start name typed.types with
    | .error fault => (.error fault, state)
    | .ok member => scope.invoke none member typed.values state

/-- Calls the public member of a name and types; nothing where there is none. -/
def invokePublic? (scope : Scope) (start : ClassId) (target : Option Value)
    (name : String) (types : List Ty) (args : List Value) (state : RunState) :
    Except Fault (Option Value) × RunState :=
  match scope.store.findPublic? start name types with
  | none => (.ok none, state)
  | some member =>
    let (outcome, state) := scope.invoke target member args state
    (outcome.map some, state)

end MemberDispatch.Scope
