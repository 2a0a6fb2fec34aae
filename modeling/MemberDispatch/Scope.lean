import MemberDispatch.Hierarchy.Subtyping
import MemberDispatch.Render
import MemberDispatch.Settings.Basic

/-!
# Scopes

A scope is a store seen under the conventions of a dispatcher: where ancestor
walks end, which class is the context parameter's, what diagnostics leave out.
Nothing in a scope changes while members are searched or called.
-/

set_option autoImplicit false

namespace MemberDispatch

structure Scope where
  store : Store
  /-- Ancestor walks stop before this class. -/
  root : ClassId
  /-- The class of the leading parameter that callers leave out. -/
  context : Option ClassId
  delegate : ClassId
  /-- Left out of type names in diagnostics. -/
  hiddenPackage : String
  hiddenFrames : List String
  /-- The caller's stack, innermost frame first. -/
  callSite : List StackFrame

/-- A class that the settings name and the store does not have. -/
structure UnknownType where
  name : String
deriving DecidableEq

def UnknownType.message (fault : UnknownType) : String :=
  "unknown type `" ++ fault.name ++ "` in reflection config"

namespace Scope

def ofStore (store : Store) (callSite : List StackFrame) : Scope :=
  let defaults : TypeSettings := {}
  { store
    root := .object
    context := some .invocation
    delegate := .delegate
    hiddenPackage := defaults.trimmedPackage
    hiddenFrames := defaults.internalFrames
    callSite }

def lookupNamed (store : Store) (name : String) : Except UnknownType ClassId :=
  match store.lookup? name with
  | some id => .ok id
  | none => .error ⟨name⟩

/-- A store under configured conventions.  The root is looked up first, then
the context, then the delegate marker. -/
def ofSettings (store : Store) (settings : TypeSettings) (callSite : List StackFrame) :
    Except UnknownType Scope := do
  let root ← lookupNamed store settings.rootType
  let context ←
    match settings.contextType with
    | none => pure none
    | some name => if name = "" then pure none else some <$> lookupNamed store name
  let delegate ← lookupNamed store settings.delegateType
  pure
    { store, root, context, delegate
      hiddenPackage := settings.trimmedPackage
      hiddenFrames := settings.internalFrames
      callSite }

/-- The classes that a search from `start` visits, nearest first. -/
def chain (scope : Scope) (start : ClassId) : List ClassId :=
  scope.store.classChain scope.root start

/-! ## Names in diagnostics -/

def classLabel (scope : Scope) (id : ClassId) : String :=
  Text.remove scope.hiddenPackage (scope.store.className id)

def describe (scope : Scope) (types : List Ty) : String :=
  scope.store.describeTypes types scope.hiddenPackage

def signature (scope : Scope) (member : Member) : String :=
  member.name ++ scope.describe member.params

def qualifiedSignature (scope : Scope) (member : Member) : String :=
  scope.classLabel member.declaringClass ++ "." ++ scope.signature member

end Scope

end MemberDispatch
