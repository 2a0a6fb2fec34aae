import Mathlib.Data.List.TakeWhile
import MemberDispatch.Invoke.Binding
import MemberDispatch.Proofs.Hierarchy.Walk
import MemberDispatch.Proofs.Store.Reachable

/-!
# Selected members

The member that runs for a receiver is the one that was called, or an instance
member of the same name and parameters that an ancestor of the receiver's class
declares.  On a reachable store the receiver is therefore an instance of the
declaring class of the member that runs, whichever class that is.
-/

set_option autoImplicit false

namespace MemberDispatch.Store

open Relation

variable {store : Store} {receiver : ClassId} {member : Member}

/-- A member that may run in the place of another: declared on a class of the
receiver's superclass line other than the member's own. -/
structure Overrides (store : Store) (receiver : ClassId) (member other : Member) : Prop where
  declared : ∃ id, ReflTransGen store.DirectSupertype receiver id ∧
    id ≠ member.declaringClass ∧ other ∈ store.members id
  onInstances : other.isStatic = false
  inherited : other.isPrivate = false
  named : other.name = member.name
  params : other.params = member.params

theorem selectOverride_of_private (closed : member.isPrivate = true) :
    store.selectOverride receiver member = member := by
  rw [selectOverride, if_pos closed]

theorem selectOverride_eq_or_overrides (store : Store) (receiver : ClassId) (member : Member) :
    store.selectOverride receiver member = member ∨
      member.isPrivate = false ∧
        store.Overrides receiver member (store.selectOverride receiver member) := by
  cases closed : member.isPrivate with
  | true => exact .inl (selectOverride_of_private closed)
  | false =>
      rw [selectOverride, if_neg (by simp [closed])]
      cases found :
          (store.overridingClasses receiver member).findSome? (store.overrideIn? member) with
      | none => exact .inl rfl
      | some other =>
          right
          obtain ⟨id, visited, override⟩ := List.exists_of_findSome?_eq_some found
          have climbed : id ∈ walk store.superclass? overrideBound receiver :=
            (List.takeWhile_sublist _).subset visited
          have elsewhere : id ≠ member.declaringClass := by
            simpa using List.mem_takeWhile_imp visited
          have matched := List.find?_some override
          simp only [Bool.and_eq_true, Bool.not_eq_true', decide_eq_true_eq] at matched
          obtain ⟨⟨⟨onInstances, inherited⟩, named⟩, params⟩ := matched
          exact ⟨rfl, ⟨id, ancestor_of_mem_walk climbed, elsewhere,
            List.mem_of_find?_eq_some override⟩, onInstances, inherited, named, params⟩

theorem selectOverride_name :
    (store.selectOverride receiver member).name = member.name := by
  rcases selectOverride_eq_or_overrides store receiver member with same | ⟨_, overrides⟩
  · rw [same]
  · exact overrides.named

theorem selectOverride_params :
    (store.selectOverride receiver member).params = member.params := by
  rcases selectOverride_eq_or_overrides store receiver member with same | ⟨_, overrides⟩
  · rw [same]
  · exact overrides.params

theorem selectOverride_onInstances (onInstances : member.isStatic = false) :
    (store.selectOverride receiver member).isStatic = false := by
  rcases selectOverride_eq_or_overrides store receiver member with same | ⟨_, overrides⟩
  · rw [same, onInstances]
  · exact overrides.onInstances

/-- The check against the called member's class carries over to the class of
the member that runs. -/
theorem isSubclass_selectOverride (reached : store.Reachable)
    (checked : store.isSubclass receiver member.declaringClass = true) :
    store.isSubclass receiver (store.selectOverride receiver member).declaringClass = true := by
  rcases selectOverride_eq_or_overrides store receiver member with same | ⟨_, overrides⟩
  · rw [same]
    exact checked
  · obtain ⟨id, path, _, declared⟩ := overrides.declared
    rw [reached.declaringClass declared]
    exact isSubclass_of_path path

end MemberDispatch.Store
