import Mathlib.Logic.Relation
import MemberDispatch.Hierarchy.Subtyping

/-!
# Ancestry

The search behind `isSubclass` visits classes level by level and stops when the
pool of classes still to be visited is used up.  Here it is shown to decide
ancestry: paths along superclasses and interfaces, of any length, on any store.
On an acyclic hierarchy whose root is bare, the subclasses of the platform's
root form a partial order.
-/

set_option autoImplicit false

namespace MemberDispatch.Store

open Relation

/-- An edge of the hierarchy: from a defined class to its superclass or to one
of its interfaces. -/
def DirectSupertype (store : Store) (sub sup : ClassId) : Prop :=
  sup ∈ store.supertypes sub

theorem directSupertype_iff {store : Store} {sub sup : ClassId} :
    store.DirectSupertype sub sup ↔
      ∃ info, store.class? sub = some info ∧
        (info.superclass = some sup ∨ sup ∈ info.interfaces) := by
  cases defined : store.class? sub with
  | none => simp [DirectSupertype, supertypes, defined]
  | some info => simp [DirectSupertype, supertypes, defined, ClassInfo.supertypes]

/-- No class is its own ancestor along one or more edges. -/
def Acyclic (store : Store) : Prop :=
  ∀ id, ¬ TransGen store.DirectSupertype id id

/-- A class without supertypes, or one that nobody has defined. -/
def Bare (store : Store) (id : ClassId) : Prop :=
  store.supertypes id = []

/-- What the platform promises of every hierarchy: no cycles, and nothing above
the three classes that arrays are instances of. -/
structure WellFormed (store : Store) : Prop where
  acyclic : store.Acyclic
  object : store.Bare .object
  cloneable : store.Bare .cloneable
  serializable : store.Bare .serializable

/-! ## Paths -/

/-- A path either avoids leaving visited places altogether, or leaves one of
them for the last time. -/
theorem path_after_last_visit {α : Type} {edge : α → α → Prop} (visited : α → Prop)
    {start goal : α} (path : ReflTransGen edge start goal) :
    ReflTransGen (fun here next => edge here next ∧ ¬ visited here) start goal ∨
      ∃ last next, visited last ∧ edge last next ∧
        ReflTransGen (fun here next => edge here next ∧ ¬ visited here) next goal := by
  induction path using ReflTransGen.head_induction_on with
  | refl => exact .inl .refl
  | @head here next leaves rest ih =>
      rcases ih with avoiding | departure
      · by_cases seen : visited here
        · exact .inr ⟨here, next, seen, leaves, avoiding⟩
        · exact .inl (.head ⟨leaves, seen⟩ avoiding)
      · exact .inr departure

theorem bare_ancestor_eq {store : Store} {id sup : ClassId} (bare : store.Bare id)
    (path : ReflTransGen store.DirectSupertype id sup) : sup = id := by
  rcases path.cases_head with same | ⟨next, leaves, _⟩
  · exact same.symm
  · rw [DirectSupertype, bare] at leaves
    simp at leaves

theorem eq_of_mutual_ancestors {store : Store} {first second : ClassId}
    (acyclic : store.Acyclic)
    (up : ReflTransGen store.DirectSupertype first second)
    (down : ReflTransGen store.DirectSupertype second first) : first = second := by
  rcases reflTransGen_iff_eq_or_transGen.mp up with same | proper
  · exact same.symm
  · exact absurd (proper.trans_left down) (acyclic first)

theorem index_lt_size_of_class? {store : Store} {id : ClassId} {info : ClassInfo}
    (defined : store.class? id = some info) : id.index < store.size :=
  (Array.getElem?_eq_some_iff.mp defined).1

theorem mem_ids_of_class? {store : Store} {id : ClassId} {info : ClassInfo}
    (defined : store.class? id = some info) : id ∈ store.ids :=
  List.mem_map.mpr ⟨id.index, List.mem_range.mpr (index_lt_size_of_class? defined), rfl⟩

theorem mem_ids_of_directSupertype {store : Store} {sub sup : ClassId}
    (edge : store.DirectSupertype sub sup) : sub ∈ store.ids := by
  obtain ⟨info, defined, -⟩ := directSupertype_iff.mp edge
  exact mem_ids_of_class? defined

/-- Where every edge leads to a smaller number, there is no cycle. -/
theorem acyclic_of_descending {store : Store}
    (descends : ∀ sub ∈ store.ids, ∀ sup ∈ store.supertypes sub, sup.index < sub.index) :
    store.Acyclic := by
  have smaller : ∀ {sub sup : ClassId}, TransGen store.DirectSupertype sub sup →
      sup.index < sub.index := by
    intro sub sup path
    induction path with
    | single edge => exact descends _ (mem_ids_of_directSupertype edge) _ edge
    | tail _ edge ih =>
        have step := descends _ (mem_ids_of_directSupertype edge) _ edge
        omega
  intro id cycle
  exact absurd (smaller cycle) (Nat.lt_irrefl id.index)

/-- A form of well-formedness that can be computed. -/
def Descending (store : Store) : Prop :=
  (∀ sub ∈ store.ids, ∀ sup ∈ store.supertypes sub, sup.index < sub.index) ∧
    ∀ id ∈ arraySupertypes, store.supertypes id = []

instance (store : Store) : Decidable store.Descending :=
  inferInstanceAs (Decidable (_ ∧ _))

theorem Descending.wellFormed {store : Store} (descending : store.Descending) :
    store.WellFormed where
  acyclic := acyclic_of_descending descending.1
  object := descending.2 .object (by decide)
  cloneable := descending.2 .cloneable (by decide)
  serializable := descending.2 .serializable (by decide)

/-! ## The search decides ancestry -/

def EdgeFrom (store : Store) (pool : List ClassId) (sub sup : ClassId) : Prop :=
  sub ∈ pool ∧ store.DirectSupertype sub sup

theorem reaches_sound {store : Store} {goal : ClassId} {rounds : Nat}
    {pool frontier : List ClassId}
    (found : store.reaches goal rounds pool frontier = true) :
    ∃ start ∈ frontier, ReflTransGen store.DirectSupertype start goal := by
  induction rounds generalizing pool frontier with
  | zero =>
      have member : goal ∈ frontier := by simpa [reaches] using found
      exact ⟨goal, member, .refl⟩
  | succ rounds ih =>
      rw [reaches, Bool.or_eq_true] at found
      rcases found with here | beyond
      · exact ⟨goal, by simpa using here, .refl⟩
      · cases metEq : pool.filter frontier.contains with
        | nil => simp [metEq] at beyond
        | cons first met =>
          rw [metEq] at beyond
          obtain ⟨next, nextMember, path⟩ := ih beyond
          obtain ⟨start, startMet, leaves⟩ := List.mem_flatMap.mp nextMember
          have startFrontier : start ∈ frontier := by
            have kept : start ∈ pool.filter frontier.contains := metEq ▸ startMet
            simpa using (List.mem_filter.mp kept).2
          exact ⟨start, startFrontier, .head leaves path⟩

/-- Enough rounds for the pool find every path that stays in it. -/
theorem reaches_complete {store : Store} {goal start : ClassId} {rounds : Nat}
    {pool frontier : List ClassId} (enough : pool.length ≤ rounds)
    (member : start ∈ frontier) (path : ReflTransGen (store.EdgeFrom pool) start goal) :
    store.reaches goal rounds pool frontier = true := by
  induction rounds generalizing pool frontier start with
  | zero =>
      have empty : pool = [] := List.length_eq_zero_iff.mp (by omega)
      rcases path.cases_head with same | ⟨next, leaves, _⟩
      · subst same
        simpa [reaches] using member
      · simp [EdgeFrom, empty] at leaves
  | succ rounds ih =>
      rw [reaches, Bool.or_eq_true]
      by_cases here : goal ∈ frontier
      · exact .inl (by simpa using here)
      · right
        -- Only the part of the path after its last visit to the frontier
        -- lies in what the next round has left of the pool.
        have departure :
            ∃ last next, last ∈ frontier ∧ store.EdgeFrom pool last next ∧
              ReflTransGen
                (fun here next => store.EdgeFrom pool here next ∧ here ∉ frontier) next goal := by
          rcases path_after_last_visit (· ∈ frontier) path with avoiding | departure
          · rcases avoiding.cases_head with same | ⟨next, leaves, _⟩
            · exact absurd (same ▸ member) here
            · exact absurd member leaves.2
          · exact departure
        obtain ⟨last, next, lastMember, ⟨lastPool, leaves⟩, rest⟩ := departure
        have lastMet : last ∈ pool.filter frontier.contains := by
          simp [lastPool, lastMember]
        have shrinks :
            (pool.filter fun id => !frontier.contains id).length ≤ rounds := by
          have fewer : (pool.filter fun id => !frontier.contains id).length < pool.length :=
            List.length_filter_lt_length_iff_exists.mpr ⟨last, lastPool, by simpa using lastMember⟩
          omega
        have remaining :
            ReflTransGen (store.EdgeFrom (pool.filter fun id => !frontier.contains id))
              next goal := by
          refine ReflTransGen.mono ?_ _ _ rest
          intro sub sup step
          refine ⟨?_, step.1.2⟩
          simpa using ⟨step.1.1, step.2⟩
        cases metEq : pool.filter frontier.contains with
        | nil => simp [metEq] at lastMet
        | cons first met =>
          refine ih shrinks ?_ remaining
          exact List.mem_flatMap.mpr ⟨last, metEq ▸ lastMet, leaves⟩

theorem reaches_iff {store : Store} {sub sup : ClassId} :
    store.reaches sup store.size store.ids [sub] = true ↔
      ReflTransGen store.DirectSupertype sub sup := by
  constructor
  · intro found
    obtain ⟨start, member, path⟩ := reaches_sound found
    rw [List.mem_singleton.mp member] at path
    exact path
  · intro path
    refine reaches_complete ?_ (List.mem_singleton_self sub) ?_
    · simp [ids]
    · exact ReflTransGen.mono
        (fun _ _ edge => ⟨mem_ids_of_directSupertype edge, edge⟩) _ _ path

/-! ## Subclasses -/

theorem isSubclass_iff_ancestor {store : Store} {sub sup : ClassId} :
    store.isSubclass sub sup = true ↔
      sup = .object ∨ ReflTransGen store.DirectSupertype sub sup := by
  simp [isSubclass, reaches_iff]

theorem isSubclass_refl (store : Store) (id : ClassId) : store.isSubclass id id = true :=
  isSubclass_iff_ancestor.mpr (.inr .refl)

theorem isSubclass_of_path {store : Store} {sub sup : ClassId}
    (path : ReflTransGen store.DirectSupertype sub sup) :
    store.isSubclass sub sup = true :=
  isSubclass_iff_ancestor.mpr (.inr path)

/-- What lies above an ancestor lies above the class, on every store. -/
theorem isSubclass_of_path_of_isSubclass {store : Store} {sub mid sup : ClassId}
    (path : ReflTransGen store.DirectSupertype sub mid)
    (above : store.isSubclass mid sup = true) : store.isSubclass sub sup = true := by
  rcases isSubclass_iff_ancestor.mp above with root | rest
  · exact isSubclass_iff_ancestor.mpr (.inl root)
  · exact isSubclass_of_path (path.trans rest)

theorem isSubclass_trans {store : Store} {sub mid sup : ClassId}
    (object : store.Bare .object)
    (lower : store.isSubclass sub mid = true) (upper : store.isSubclass mid sup = true) :
    store.isSubclass sub sup = true := by
  rcases isSubclass_iff_ancestor.mp lower with root | path
  · -- Nothing but the root lies above the root.
    subst root
    rcases isSubclass_iff_ancestor.mp upper with top | path
    · exact isSubclass_iff_ancestor.mpr (.inl top)
    · exact isSubclass_iff_ancestor.mpr (.inl (bare_ancestor_eq object path))
  · exact isSubclass_of_path_of_isSubclass path upper

theorem isSubclass_antisymm {store : Store} {first second : ClassId}
    (acyclic : store.Acyclic) (object : store.Bare .object)
    (up : store.isSubclass first second = true)
    (down : store.isSubclass second first = true) : first = second := by
  rcases isSubclass_iff_ancestor.mp up with secondRoot | up
  · subst secondRoot
    rcases isSubclass_iff_ancestor.mp down with firstRoot | down
    · exact firstRoot
    · exact bare_ancestor_eq object down
  · rcases isSubclass_iff_ancestor.mp down with firstRoot | down
    · subst firstRoot
      exact (bare_ancestor_eq object up).symm
    · exact eq_of_mutual_ancestors acyclic up down

theorem isSubclass_of_bare {store : Store} {id sup : ClassId} (bare : store.Bare id)
    (above : store.isSubclass id sup = true) : sup = .object ∨ sup = id := by
  rcases isSubclass_iff_ancestor.mp above with root | path
  · exact .inl root
  · exact .inr (bare_ancestor_eq bare path)

end MemberDispatch.Store
