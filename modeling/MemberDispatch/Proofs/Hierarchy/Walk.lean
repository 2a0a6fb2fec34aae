import MemberDispatch.Proofs.Hierarchy.Ancestry

/-!
# Walks climb

Whatever bound cuts a walk, and wherever it starts to repeat, its elements lie
on a path from its start.  The chains of classes that searches and calls follow
are such walks along superclasses, so that their elements are ancestors.
-/

set_option autoImplicit false

namespace MemberDispatch

open Relation

theorem path_of_mem_walk {α : Type} {step : α → Option α} {bound : Nat} {start visited : α}
    (member : visited ∈ walk step bound start) :
    ReflTransGen (fun here next => step here = some next) start visited := by
  induction bound generalizing start with
  | zero => simp [walk] at member
  | succ bound ih =>
      rw [walk, List.mem_cons] at member
      rcases member with rfl | later
      · exact .refl
      · cases stepEq : step start with
        | none => simp [stepEq] at later
        | some next =>
            rw [stepEq] at later
            exact .head stepEq (ih later)

theorem mem_of_mem_beforeRepeat {α : Type} [DecidableEq α] {seen elements : List α}
    {element : α} (kept : element ∈ beforeRepeat seen elements) : element ∈ elements := by
  induction elements generalizing seen with
  | nil => exact kept
  | cons head rest ih =>
      rw [beforeRepeat] at kept
      split at kept
      · simp at kept
      · rcases List.mem_cons.mp kept with rfl | later
        · exact List.mem_cons_self
        · exact List.mem_cons_of_mem head (ih later)

theorem beforeRepeat_prefix {α : Type} [DecidableEq α] (seen elements : List α) :
    beforeRepeat seen elements <+: elements := by
  induction elements generalizing seen with
  | nil => exact List.prefix_rfl
  | cons head rest ih =>
      rw [beforeRepeat]
      split
      · exact List.nil_prefix
      · exact (List.prefix_cons_inj head).mpr (ih (head :: seen))

/-- A walk along a wider step meets, before it comes to an element, only what a
walk along the narrower step meets before it. -/
theorem mem_before_of_mem_takeWhile_walk {α : Type} [DecidableEq α] {narrow wide : α → Option α}
    (widens : ∀ here next, narrow here = some next → wide here = some next)
    {bound other : Nat} {start goal : α} {before after : List α}
    (reaches : walk narrow bound start = before ++ goal :: after) {visited : α}
    (member : visited ∈ (walk wide other start).takeWhile fun element => element ≠ goal) :
    visited ∈ before := by
  induction before generalizing bound other start with
  | nil =>
      cases bound with
      | zero => simp [walk] at reaches
      | succ bound =>
          rw [walk, List.nil_append, List.cons.injEq] at reaches
          cases other with
          | zero => simp [walk] at member
          | succ other => simp [walk, reaches.1] at member
  | cons first before ih =>
      cases bound with
      | zero => simp [walk] at reaches
      | succ bound =>
          rw [walk, List.cons_append, List.cons.injEq] at reaches
          obtain ⟨rfl, reachesGoal⟩ := reaches
          cases stepEq : narrow start with
          | none => simp [stepEq] at reachesGoal
          | some next =>
              rw [stepEq] at reachesGoal
              cases other with
              | zero => simp [walk] at member
              | succ other =>
                  rw [walk, widens start next stepEq, List.takeWhile_cons] at member
                  split at member
                  · rcases List.mem_cons.mp member with rfl | later
                    · exact List.mem_cons_self
                    · exact List.mem_cons_of_mem _ (ih reachesGoal later)
                  · simp at member

namespace Store

variable {store : Store}

theorem directSupertype_of_superclass? {id superclass : ClassId}
    (above : store.superclass? id = some superclass) :
    store.DirectSupertype id superclass := by
  obtain ⟨info, defined, superclassEq⟩ := Option.bind_eq_some_iff.mp above
  simp [DirectSupertype, supertypes, defined, ClassInfo.supertypes, superclassEq]

theorem mem_ids_of_superclass? {here next : ClassId} (above : store.superclass? here = some next) :
    here ∈ store.ids :=
  mem_ids_of_directSupertype (directSupertype_of_superclass? above)

theorem directSupertype_of_mem_interfaces {sub id : ClassId} (above : id ∈ store.interfaces sub) :
    store.DirectSupertype sub id := by
  cases defined : store.class? sub with
  | none => simp [interfaces, defined] at above
  | some info =>
      exact directSupertype_iff.mpr
        ⟨info, defined, .inr (by simpa [interfaces, defined] using above)⟩

theorem ancestor_of_mem_walk {bound : Nat} {start id : ClassId}
    (visited : id ∈ walk store.superclass? bound start) :
    ReflTransGen store.DirectSupertype start id :=
  ReflTransGen.mono (fun _ _ => directSupertype_of_superclass?) _ _ (path_of_mem_walk visited)

/-- The root only cuts a chain short. -/
theorem ancestor_of_mem_classChain {root start id : ClassId}
    (visited : id ∈ store.classChain root start) :
    ReflTransGen store.DirectSupertype start id := by
  refine ReflTransGen.mono ?_ _ _ (path_of_mem_walk (mem_of_mem_beforeRepeat visited))
  intro here next stepEq
  exact directSupertype_of_superclass? (Option.filter_eq_some_iff.mp stepEq).1

/-- A walk along all superclasses, cut anywhere, meets before a class of the chain
only what the chain has before that class. -/
theorem mem_before_of_mem_superclasses {root start id visited : ClassId}
    {before after : List ClassId} {bound : Nat}
    (chain : store.classChain root start = before ++ id :: after)
    (met : visited ∈
      (walk store.superclass? bound start).takeWhile fun element => element ≠ id) :
    visited ∈ before := by
  rw [classChain] at chain
  obtain ⟨rest, whole⟩ := beforeRepeat_prefix []
    (walk (fun id => (store.superclass? id).filter fun superclass => superclass ≠ root)
      store.walkBound start)
  rw [chain, List.append_assoc, List.cons_append] at whole
  refine mem_before_of_mem_takeWhile_walk ?_ whole.symm met
  intro here next stepEq
  exact (Option.filter_eq_some_iff.mp stepEq).1

end Store

end MemberDispatch
