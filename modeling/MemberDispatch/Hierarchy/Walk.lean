import MemberDispatch.Store.Basic

/-!
# Walks along a step

A walk follows a partial step from a start for a bounded number of elements.
Class hierarchies may be cyclic and may point outside the store, so every
search over them is a walk cut at the first element that repeats, or a
closure of a finite set of edges.
-/

set_option autoImplicit false

namespace MemberDispatch

/-- The first `bound` elements from `start` on along `step`. -/
def walk {α : Type} (step : α → Option α) : Nat → α → List α
  | 0, _ => []
  | bound + 1, start =>
    start ::
      match step start with
      | none => []
      | some next => walk step bound next

/-- The longest start of a list that repeats nothing and avoids `seen`. -/
def beforeRepeat {α : Type} [DecidableEq α] (seen : List α) : List α → List α
  | [] => []
  | head :: rest =>
    if seen.contains head then [] else head :: beforeRepeat (head :: seen) rest

namespace Store

def superclass? (store : Store) (id : ClassId) : Option ClassId :=
  (store.class? id).bind ClassInfo.superclass

/-- The interfaces a class names; none for a class nobody has defined. -/
def interfaces (store : Store) (id : ClassId) : List ClassId :=
  ((store.class? id).map ClassInfo.interfaces).getD []

def supertypes (store : Store) (id : ClassId) : List ClassId :=
  ((store.class? id).map ClassInfo.supertypes).getD []

def members (store : Store) (id : ClassId) : List Member :=
  ((store.class? id).map ClassInfo.members).getD []

/-- Enough elements for a walk to repeat itself or to leave the store: each
class once, and one number that nobody has defined. -/
def walkBound (store : Store) : Nat := store.size + 1

/-- A class and its superclasses as far as nothing repeats, a root left out
where it is a superclass.  A number that nobody has defined ends the chain as
its last element. -/
def classChain (store : Store) (root : ClassId) (start : ClassId) : List ClassId :=
  let below (id : ClassId) : Option ClassId :=
    (store.superclass? id).filter fun superclass => superclass ≠ root
  beforeRepeat [] (walk below store.walkBound start)

def superclassChain (store : Store) (start : ClassId) : List ClassId :=
  beforeRepeat [] (walk store.superclass? store.walkBound start)

end Store

end MemberDispatch
