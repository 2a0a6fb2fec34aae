import MemberDispatch.Fault
import MemberDispatch.Resolve.Candidate

/-!
# Events

What a store and a dispatcher report while they work.  An event has a level, a
target, a message, and fields that are written as texts.
-/

set_option autoImplicit false

namespace MemberDispatch

inductive EventLevel where
  | warn
  | debug
  | trace
deriving DecidableEq, Inhabited

def EventLevel.label : EventLevel → String
  | .warn => "WARN"
  | .debug => "DEBUG"
  | .trace => "TRACE"

def MatchMode.label : MatchMode → String
  | .exact => "Exact"
  | .coercive => "Coercive"

inductive Event where
  | definitionIgnored (id : ClassId) (name : String)
  | candidateKept (className signature : String)
  | resolved (signature declaring : String) (mode : MatchMode)
  | handlerFound (kind : HandlerKind) (className signature : String)
  | accessRelaxed (signature : String)
  | memberRaised (signature : String) (thrown : Throwable) (kind : ThrowableKind)
  | handlerCalled (invoked signature : String) (count : Nat)
deriving DecidableEq, Inhabited

namespace Event

def level : Event → EventLevel
  | definitionIgnored _ _ => .warn
  | candidateKept _ _ => .trace
  | resolved _ _ _ => .debug
  | handlerFound _ _ _ => .debug
  | accessRelaxed _ => .trace
  | memberRaised _ _ _ => .debug
  | handlerCalled _ _ _ => .trace

def target : Event → String
  | definitionIgnored _ _ => "stubble.types"
  | _ => "stubble.reflect"

def message : Event → String
  | definitionIgnored _ _ => "ignoring definition for unknown class id"
  | candidateKept _ _ => "candidate kept"
  | resolved _ _ _ => "resolved"
  | handlerFound _ _ _ => "handler found"
  | accessRelaxed _ => "access checks suppressed"
  | memberRaised _ _ _ => "member raised"
  | handlerCalled _ _ _ => "dispatching to handler"

def fields : Event → List (String × String)
  | definitionIgnored id name => [("id", toString id.index), ("name", name)]
  | candidateKept className signature => [("class", className), ("method", signature)]
  | resolved signature declaring mode =>
    [("method", signature), ("declaring", declaring), ("mode", mode.label)]
  | handlerFound kind className signature =>
    [("kind", kind.label), ("class", className), ("method", signature)]
  | accessRelaxed signature => [("method", signature)]
  | memberRaised signature thrown kind =>
    [("method", signature), ("thrown", thrown.text), ("kind", kind.label)]
  | handlerCalled invoked signature count =>
    [("invoked", invoked), ("handler", signature), ("count", toString count)]

end Event

def Store.definitionEvents (store : Store) (id : ClassId) (definition : ClassDef) :
    List Event :=
  match store.class? id with
  | none => [.definitionIgnored id definition.name]
  | some _ => []

end MemberDispatch
