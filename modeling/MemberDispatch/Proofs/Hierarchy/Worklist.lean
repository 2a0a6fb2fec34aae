import Mathlib.Data.List.Nodup
import MemberDispatch.Proofs.Hierarchy.Ancestry

/-!
# The search for a supertype by a queue

Supertypes can also be searched one class a turn: the class at the front of a
queue is the goal, or has been seen before, or puts its supertypes at the back.
No turn changes whether a queued class reaches the goal along edges that leave
no seen class, and every turn uses up a queued class or the edges of a new one.
So on every store, cyclic or not, the search ends within a number of turns that
its edges bound, and its answer is that of `isSubclass`: ancestry.
-/

set_option autoImplicit false

namespace MemberDispatch

open Relation

theorem Store.nodup_ids (store : Store) : store.ids.Nodup := by
  refine List.Nodup.map ?_ List.nodup_range
  intro first second same
  exact congrArg ClassId.index same

/-- A search under way: the classes it still has to look at, the next one first,
and those it has seen. -/
structure Worklist where
  queue : List ClassId
  seen : List ClassId

namespace Worklist

def start (id : ClassId) : Worklist := ⟨[id], []⟩

/-- One turn: an answer, or what is left of the work. -/
def turn (store : Store) (goal : ClassId) : Worklist → Bool ⊕ Worklist
  | ⟨[], _⟩ => .inl false
  | ⟨current :: queue, seen⟩ =>
    if current = goal then .inl true
    else if seen.contains current then .inr ⟨queue, seen⟩
    else .inr ⟨queue ++ store.supertypes current, current :: seen⟩

/-- The answer of a search that may take so many turns. -/
def answerWithin (store : Store) (goal : ClassId) : Nat → Worklist → Option Bool
  | 0, _ => none
  | turns + 1, work =>
    match work.turn store goal with
    | .inl answer => some answer
    | .inr next => next.answerWithin store goal turns

variable {store : Store} {goal : ClassId} {work next : Worklist} {answer : Bool}

/-- All that a turn can do. -/
inductive Turns (store : Store) (goal : ClassId) : Worklist → Bool ⊕ Worklist → Prop where
  | exhausted (seen : List ClassId) : Turns store goal ⟨[], seen⟩ (.inl false)
  | arrived (queue seen : List ClassId) : Turns store goal ⟨goal :: queue, seen⟩ (.inl true)
  | skipped {current : ClassId} {queue seen : List ClassId} (elsewhere : current ≠ goal)
      (old : current ∈ seen) : Turns store goal ⟨current :: queue, seen⟩ (.inr ⟨queue, seen⟩)
  | expanded {current : ClassId} {queue seen : List ClassId} (elsewhere : current ≠ goal)
      (fresh : current ∉ seen) : Turns store goal ⟨current :: queue, seen⟩
        (.inr ⟨queue ++ store.supertypes current, current :: seen⟩)

theorem turns_turn (store : Store) (goal : ClassId) (work : Worklist) :
    Turns store goal work (work.turn store goal) := by
  obtain ⟨queue, seen⟩ := work
  cases queue with
  | nil => exact .exhausted seen
  | cons current queue =>
      rw [turn]
      split
      · rename_i here
        subst here
        exact .arrived queue seen
      · rename_i elsewhere
        split
        · rename_i old
          exact .skipped elsewhere (by simpa using old)
        · rename_i fresh
          exact .expanded elsewhere (by simpa using fresh)

/-! ## What the search has still to find -/

/-- Some queued class reaches the goal along edges that leave no seen class. -/
def Promising (store : Store) (goal : ClassId) (work : Worklist) : Prop :=
  ∃ here ∈ work.queue,
    ReflTransGen (fun sub sup => store.DirectSupertype sub sup ∧ sub ∉ work.seen) here goal

theorem promising_start {id : ClassId} :
    (start id).Promising store goal ↔ ReflTransGen store.DirectSupertype id goal := by
  simp [Promising, start]

/-- A search ends with the right answer. -/
theorem promising_of_answer (ends : work.turn store goal = .inl answer) :
    work.Promising store goal ↔ answer = true := by
  have turned := turns_turn store goal work
  rw [ends] at turned
  cases turned with
  | exhausted seen => simp [Promising]
  | arrived queue seen =>
      have arrived : Promising store goal ⟨goal :: queue, seen⟩ := ⟨goal, List.mem_cons_self, .refl⟩
      simp [arrived]

/-- A path from a class that has been seen would have to leave it. -/
theorem promising_skipped {current : ClassId} {queue seen : List ClassId}
    (elsewhere : current ≠ goal) (old : current ∈ seen) :
    Promising store goal ⟨queue, seen⟩ ↔ Promising store goal ⟨current :: queue, seen⟩ := by
  constructor
  · rintro ⟨here, queued, path⟩
    exact ⟨here, List.mem_cons_of_mem current queued, path⟩
  · rintro ⟨here, queued, path⟩
    rcases List.mem_cons.mp queued with rfl | later
    · rcases path.cases_head with same | ⟨_, leaves, _⟩
      · exact absurd same elsewhere
      · exact absurd old leaves.2
    · exact ⟨here, later, path⟩

/-- Once its supertypes are queued, no path has to leave a class any more. -/
theorem promising_expanded {current : ClassId} {queue seen : List ClassId}
    (elsewhere : current ≠ goal) (fresh : current ∉ seen) :
    Promising store goal ⟨queue ++ store.supertypes current, current :: seen⟩ ↔
      Promising store goal ⟨current :: queue, seen⟩ := by
  have narrower : ∀ {here : ClassId},
      ReflTransGen (fun sub sup => store.DirectSupertype sub sup ∧ sub ∉ current :: seen) here goal →
      ReflTransGen (fun sub sup => store.DirectSupertype sub sup ∧ sub ∉ seen) here goal := by
    intro here path
    refine ReflTransGen.mono ?_ _ _ path
    rintro sub sup ⟨edge, unseen⟩
    exact ⟨edge, fun old => unseen (List.mem_cons_of_mem current old)⟩
  have avoiding : ∀ {here : ClassId},
      ReflTransGen (fun sub sup => (store.DirectSupertype sub sup ∧ sub ∉ seen) ∧ ¬ sub = current)
        here goal →
      ReflTransGen (fun sub sup => store.DirectSupertype sub sup ∧ sub ∉ current :: seen)
        here goal := by
    intro here path
    refine ReflTransGen.mono ?_ _ _ path
    rintro sub sup ⟨⟨edge, unseen⟩, other⟩
    exact ⟨edge, by simp [other, unseen]⟩
  constructor
  · rintro ⟨here, queued, path⟩
    rcases List.mem_append.mp queued with waiting | above
    · exact ⟨here, List.mem_cons_of_mem current waiting, narrower path⟩
    · exact ⟨current, List.mem_cons_self, .head ⟨above, fresh⟩ (narrower path)⟩
  · rintro ⟨here, queued, path⟩
    rcases Store.path_after_last_visit (· = current) path with clear | ⟨last, next, rfl, leaves, rest⟩
    · rcases List.mem_cons.mp queued with rfl | waiting
      · rcases clear.cases_head with same | ⟨_, leaves, _⟩
        · exact absurd same elsewhere
        · exact absurd rfl leaves.2
      · exact ⟨here, List.mem_append_left _ waiting, avoiding clear⟩
    · exact ⟨next, List.mem_append_right _ leaves.1, avoiding rest⟩

/-- A turn that gives no answer loses nothing and adds nothing. -/
theorem promising_of_next (goesOn : work.turn store goal = .inr next) :
    next.Promising store goal ↔ work.Promising store goal := by
  have turned := turns_turn store goal work
  rw [goesOn] at turned
  cases turned with
  | skipped elsewhere old => exact promising_skipped elsewhere old
  | expanded elsewhere fresh => exact promising_expanded elsewhere fresh

theorem promising_of_answerWithin {turns : Nat}
    (answered : work.answerWithin store goal turns = some answer) :
    work.Promising store goal ↔ answer = true := by
  induction turns generalizing work with
  | zero => simp [answerWithin] at answered
  | succ turns ih =>
      rw [answerWithin] at answered
      cases turned : work.turn store goal with
      | inl given =>
          rw [turned, Option.some.injEq] at answered
          exact answered ▸ promising_of_answer turned
      | inr next =>
          rw [turned] at answered
          rw [← promising_of_next turned]
          exact ih answered

/-! ## How long it takes -/

/-- The number of edges that leave classes not seen. -/
def openEdges (store : Store) (seen : List ClassId) : Nat :=
  ((store.ids.filter fun id => !seen.contains id).flatMap store.supertypes).length

/-- A turn takes one class from the queue, and puts there what an edge leads to
only when the edge is closed. -/
def effort (store : Store) (work : Worklist) : Nat :=
  work.queue.length + openEdges store work.seen

/-- To see a class closes the edges that leave it. -/
theorem openEdges_cons (store : Store) {current : ClassId} {seen : List ClassId}
    (fresh : current ∉ seen) :
    openEdges store (current :: seen) + (store.supertypes current).length =
      openEdges store seen := by
  by_cases defined : current ∈ store.ids
  · have unseen : current ∈ store.ids.filter fun id => !seen.contains id := by
      simp [defined, fresh]
    have closes : (store.ids.filter fun id => !(current :: seen).contains id) =
        (store.ids.filter fun id => !seen.contains id).erase current := by
      rw [List.Nodup.erase_eq_filter (store.nodup_ids.filter _), List.filter_filter]
      refine List.filter_congr fun id _ => ?_
      by_cases same : id = current <;> simp [same]
    have regrouped := ((List.perm_cons_erase unseen).flatMap_right store.supertypes).length_eq
    rw [List.flatMap_cons, List.length_append] at regrouped
    rw [openEdges, closes, openEdges, regrouped, Nat.add_comm]
  · have edgeless : store.supertypes current = [] := by
      refine List.eq_nil_iff_forall_not_mem.mpr fun sup edge => defined ?_
      exact Store.mem_ids_of_directSupertype edge
    have closes : (store.ids.filter fun id => !(current :: seen).contains id) =
        store.ids.filter fun id => !seen.contains id := by
      refine List.filter_congr fun id listed => ?_
      have other : id ≠ current := fun same => defined (same ▸ listed)
      simp [other]
    rw [openEdges, closes, edgeless, List.length_nil, Nat.add_zero, openEdges]

theorem effort_lt (goesOn : work.turn store goal = .inr next) :
    next.effort store < work.effort store := by
  have turned := turns_turn store goal work
  rw [goesOn] at turned
  cases turned with
  | skipped elsewhere old => simp [effort]
  | expanded elsewhere fresh =>
      have closed := openEdges_cons store fresh
      simp only [effort, List.length_append, List.length_cons]
      omega

theorem exists_answerWithin (goal : ClassId) {turns : Nat} (enough : work.effort store < turns) :
    ∃ answer, work.answerWithin store goal turns = some answer := by
  induction turns generalizing work with
  | zero => omega
  | succ turns ih =>
      rw [answerWithin]
      cases turned : work.turn store goal with
      | inl answer => exact ⟨answer, rfl⟩
      | inr next =>
          have less := effort_lt turned
          exact ih (by omega)

end Worklist

namespace Store

variable {store : Store} {sub sup : ClassId}

/-- The number of superclass and interface edges. -/
def edgeCount (store : Store) : Nat :=
  (store.ids.flatMap store.supertypes).length

theorem effort_start (store : Store) (id : ClassId) :
    (Worklist.start id).effort store = store.edgeCount + 1 := by
  simp [Worklist.effort, Worklist.start, Worklist.openEdges, edgeCount, Nat.add_comm]

/-- Whether one class is a subclass of another, by a search that may take so many
turns.  A class itself and the root need none. -/
def subclassWithin (store : Store) (turns : Nat) (sub sup : ClassId) : Option Bool :=
  if sub = sup ∨ sup = .object then some true
  else (Worklist.start sub).answerWithin store sup turns

theorem subclassWithin_eq {turns : Nat} (enough : store.edgeCount + 1 < turns) :
    store.subclassWithin turns sub sup = some (store.isSubclass sub sup) := by
  rw [subclassWithin]
  split
  · rename_i atOnce
    rcases atOnce with rfl | root
    · rw [isSubclass_refl]
    · rw [isSubclass_iff_ancestor.mpr (.inl root)]
  · rename_i searched
    have ends : (Worklist.start sub).effort store < turns := by rwa [effort_start]
    obtain ⟨answer, answered⟩ := Worklist.exists_answerWithin sup ends
    have exact := Worklist.promising_of_answerWithin answered
    rw [Worklist.promising_start] at exact
    have same : store.isSubclass sub sup = answer := by
      rw [Bool.eq_iff_iff, isSubclass_iff_ancestor, exact]
      simp [(not_or.mp searched).2]
    rw [answered, same]

/-- On every store a class is a subclass of the root and of whatever it reaches
along edges that leave defined classes, and of nothing else.  The search by a
queue finds that out within two turns more than the store has edges. -/
theorem isSubclass_decides_ancestry (store : Store) (sub sup : ClassId) :
    (store.isSubclass sub sup = true ↔
        sup = .object ∨
          ReflTransGen (fun here above => ∃ info, store.class? here = some info ∧
            (info.superclass = some above ∨ above ∈ info.interfaces)) sub sup) ∧
      ∀ more, store.subclassWithin (store.edgeCount + 2 + more) sub sup =
        some (store.isSubclass sub sup) := by
  have edges : store.DirectSupertype = fun here above => ∃ info, store.class? here = some info ∧
      (info.superclass = some above ∨ above ∈ info.interfaces) := by
    funext here above
    exact propext directSupertype_iff
  constructor
  · rw [isSubclass_iff_ancestor, edges]
  · intro more
    exact subclassWithin_eq (by omega)

end Store

end MemberDispatch
