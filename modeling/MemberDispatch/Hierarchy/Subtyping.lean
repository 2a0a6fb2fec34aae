import MemberDispatch.Hierarchy.Walk

/-!
# Subclasses and assignability

`isSubclass` searches the supertypes of a class level by level.  Each level
takes the classes it meets out of the pool of classes still to be visited, so
the search ends on every store, cyclic or not.  `isAssignable` extends it to
arrays; primitive kinds are assignable to themselves alone.
-/

set_option autoImplicit false

namespace MemberDispatch

namespace Store

/-- Whether `goal` is on the frontier, or beyond it along edges that leave the
classes of `pool`. -/
def reaches (store : Store) (goal : ClassId) :
    Nat → List ClassId → List ClassId → Bool
  | 0, _, frontier => frontier.contains goal
  | rounds + 1, pool, frontier =>
    frontier.contains goal ||
      match pool.filter frontier.contains with
      | [] => false
      | met =>
        store.reaches goal rounds
          (pool.filter fun id => !frontier.contains id)
          (met.flatMap store.supertypes)

/-- The same class, or a supertype through superclasses and interfaces.  The
platform's root is above every class. -/
def isSubclass (store : Store) (sub sup : ClassId) : Bool :=
  sup = .object || store.reaches sup store.size store.ids [sub]

def arraySupertypes : List ClassId :=
  [.object, .cloneable, .serializable]

/-- Whether a slot of type `target` can hold a value of type `source`
without conversion. -/
def isAssignable (store : Store) : (target source : Ty) → Bool
  | .array target, .array source =>
    target = source ||
      target.isReference && source.isReference && store.isAssignable target source
  | .ofClass target, .ofClass source =>
    target = source || store.isSubclass source target
  | .ofClass target, .array _ => arraySupertypes.contains target
  | target, source => target = source

end Store

/-! ## Kinds of throwable -/

inductive ThrowableKind where
  | error
  | unchecked
  | checked
deriving DecidableEq, Inhabited

/-- A subclass of the platform's error class is an error, one of its run-time
exception is unchecked, and everything else has to be declared. -/
def Store.throwableKind (store : Store) (id : ClassId) : ThrowableKind :=
  if store.isSubclass id .error then .error
  else if store.isSubclass id .runtimeException then .unchecked
  else .checked

end MemberDispatch
