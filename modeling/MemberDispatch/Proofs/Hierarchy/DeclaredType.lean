import MemberDispatch.Hierarchy.DeclaredType
import MemberDispatch.Proofs.Hierarchy.Ancestry

/-!
# Generated classes lie below their declared types

Each step of the unwrap walk follows an edge of the hierarchy, and a walk that
is too long is given up at its start.  So the declared type of a class is the
class itself or one of its ancestors, on every store, and what is above the
declared type is above the class.
-/

set_option autoImplicit false

namespace MemberDispatch.Store

open Relation

variable {store : Store}

/-- A class that stands in for no other. -/
def Genuine (store : Store) (id : ClassId) : Prop :=
  ∀ info, store.class? id = some info → info.synthetic = false

theorem directSupertype_of_unwrapStep? {id next : ClassId}
    (unwraps : store.unwrapStep? id = some next) : store.DirectSupertype id next := by
  unfold unwrapStep? at unwraps
  cases defined : store.class? id with
  | none => simp [defined] at unwraps
  | some info =>
      rw [DirectSupertype, supertypes, defined]
      simp only [Option.map_some, Option.getD_some, ClassInfo.supertypes]
      simp only [defined, Option.ite_none_right_eq_some] at unwraps
      obtain ⟨_, target⟩ := unwraps
      rw [List.mem_append]
      split at target
      · rename_i superclass superclassEq
        split at target
        · exact .inr (List.mem_of_head? target)
        · exact .inl (by simpa [superclassEq] using target.symm)
      · exact .inr (List.mem_of_head? target)

theorem ancestor_unwrapWithin {start current : ClassId} {bound : Nat}
    (path : ReflTransGen store.DirectSupertype start current) :
    ReflTransGen store.DirectSupertype start (store.unwrapWithin start bound current) := by
  induction bound generalizing current with
  | zero => exact .refl
  | succ bound ih =>
      rw [unwrapWithin]
      cases unwraps : store.unwrapStep? current with
      | none => exact path
      | some next => exact ih (path.tail (directSupertype_of_unwrapStep? unwraps))

theorem ancestor_declaredType (store : Store) (id : ClassId) :
    ReflTransGen store.DirectSupertype id (store.declaredType id) :=
  ancestor_unwrapWithin .refl

theorem declaredType_of_genuine {id : ClassId} (genuine : store.Genuine id) :
    store.declaredType id = id := by
  have ends : store.unwrapStep? id = none := by
    unfold unwrapStep?
    cases defined : store.class? id with
    | none => rfl
    | some info => simp [genuine info defined]
  rw [declaredType, unwrapBound, unwrapWithin, ends]

end MemberDispatch.Store
