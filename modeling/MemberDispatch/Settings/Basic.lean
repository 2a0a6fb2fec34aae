/-!
# Settings

The two sections of the configuration: how much is logged, and which classes
the dispatcher treats specially.
-/

set_option autoImplicit false

namespace MemberDispatch

def LogSettings.defaultLevel : String := "info"

def LogSettings.defaultStderr : Bool := true

structure LogSettings where
  /-- A level, or a list of directives. -/
  level : String := LogSettings.defaultLevel
  json : Bool := false
  stderr : Bool := LogSettings.defaultStderr
deriving DecidableEq, Inhabited

namespace TypeSettings

def defaultRootType : String := "java.lang.Object"

def defaultContextType : Option String := some "stubble.Invocation"

def defaultDelegateType : String := "stubble.Delegate"

def defaultTrimmedPackage : String := "java.lang."

def defaultInternalFrames : List String :=
  ["stubble.internal.", "java.lang.reflect.", "jdk.internal.reflect.", "sun.reflect."]

end TypeSettings

structure TypeSettings where
  rootType : String := TypeSettings.defaultRootType
  /-- The leading parameter that callers leave out; nothing or an empty name
  turns the convention off. -/
  contextType : Option String := TypeSettings.defaultContextType
  delegateType : String := TypeSettings.defaultDelegateType
  trimmedPackage : String := TypeSettings.defaultTrimmedPackage
  /-- Frames of classes with such a start are hidden. -/
  internalFrames : List String := TypeSettings.defaultInternalFrames
deriving DecidableEq, Inhabited

structure Settings where
  logging : LogSettings := {}
  types : TypeSettings := {}
deriving DecidableEq, Inhabited

end MemberDispatch
