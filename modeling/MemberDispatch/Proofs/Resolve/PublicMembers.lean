import MemberDispatch.Proofs.Hierarchy.Ascent
import MemberDispatch.Proofs.Invoke.Binding
import MemberDispatch.Proofs.Store.Reachable
import MemberDispatch.Resolve.PublicLookup

/-!
# What a public lookup visits

The interfaces of a line of classes are gathered level by level, and a class is
visited once.  Each level that is not the last sees a defined class for the first
time, so the number of levels is never what ends the search: it visits all
interfaces that interface edges lead to from the line, on every store.
-/

set_option autoImplicit false

namespace MemberDispatch.Store

open Relation

variable {store : Store} {start id : ClassId} {seen frontier line : List ClassId}

theorem interfaces_of_class? {info : ClassInfo} (defined : store.class? id = some info) :
    store.interfaces id = info.interfaces := by
  simp [interfaces, defined]

theorem length_interfaces_le (store : Store) (id : ClassId) :
    (store.interfaces id).length ≤ (store.supertypes id).length := by
  cases defined : store.class? id with
  | none => simp [interfaces, defined]
  | some info => simp [interfaces, supertypes, ClassInfo.supertypes, defined]

/-! ## One level -/

/-- The number of defined classes not seen yet. -/
def unseen (store : Store) (seen : List ClassId) : Nat :=
  (store.ids.filter fun id => !seen.contains id).length

/-- What a frontier adds to the classes seen. -/
def freshIn (seen frontier : List ClassId) : List ClassId :=
  (frontier.filter fun id => !seen.contains id).eraseDups

theorem mem_freshIn_iff : id ∈ freshIn seen frontier ↔ id ∈ frontier ∧ id ∉ seen := by
  simp [freshIn, List.mem_eraseDups]

theorem freshIn_cons_of_mem (old : id ∈ seen) :
    freshIn seen (id :: frontier) = freshIn seen frontier := by
  simp [freshIn, old]

theorem freshIn_cons_of_not_mem (new : id ∉ seen) :
    freshIn seen (id :: frontier) = id :: freshIn (id :: seen) frontier := by
  have apart : (frontier.filter fun other => !(id :: seen).contains other) =
      (frontier.filter fun other => !seen.contains other).filter fun other => !(other == id) := by
    rw [List.filter_filter]
    refine List.filter_congr fun other _ => ?_
    by_cases same : other = id <;> simp [same]
  rw [freshIn, List.filter_cons_of_pos (by simpa using new), List.eraseDups_cons,
    freshIn, apart]

theorem freshIn_congr {other : List ClassId} (same : ∀ id, id ∈ seen ↔ id ∈ other) :
    freshIn seen frontier = freshIn other frontier := by
  simp only [freshIn, List.contains_eq_mem, same]

theorem unseen_lt {wider : List ClassId} (defined : id ∈ store.ids) (before : id ∉ seen)
    (after : id ∈ wider) (widens : ∀ other ∈ seen, other ∈ wider) :
    store.unseen wider < store.unseen seen := by
  have narrows : (store.ids.filter fun other => !wider.contains other) =
      (store.ids.filter fun other => !seen.contains other).filter
        fun other => !wider.contains other := by
    rw [List.filter_filter]
    refine List.filter_congr fun other _ => ?_
    by_cases old : other ∈ seen
    · simp [widens other old]
    · simp [old]
  rw [unseen, unseen, narrows, List.length_filter_lt_length_iff_exists]
  exact ⟨id, by simp [defined, before], by simp [after]⟩

/-- A level that leads on to another has a defined class, so that one level less is
enough for the rest. -/
theorem enough_levels {levels : Nat} (enough : frontier ≠ [] → store.unseen seen < levels + 1)
    (leads : (freshIn seen frontier).flatMap store.interfaces ≠ []) :
    store.unseen (freshIn seen frontier ++ seen) < levels := by
  obtain ⟨above, listed⟩ := List.exists_mem_of_ne_nil _ leads
  obtain ⟨sub, fresh, edge⟩ := List.mem_flatMap.mp listed
  obtain ⟨queued, new⟩ := mem_freshIn_iff.mp fresh
  have less : store.unseen (freshIn seen frontier ++ seen) < store.unseen seen :=
    unseen_lt (mem_ids_of_directSupertype (directSupertype_of_mem_interfaces edge)) new
      (List.mem_append_left _ fresh) (fun _ => List.mem_append_right _)
  have bound := enough (List.ne_nil_of_mem queued)
  omega

theorem interfacesFrom_nil (levels : Nat) (seen : List ClassId) :
    store.interfacesFrom levels seen [] = [] := by
  cases levels <;> simp [interfacesFrom]

theorem interfacesFrom_succ (levels : Nat) (seen frontier : List ClassId) :
    store.interfacesFrom (levels + 1) seen frontier =
      freshIn seen frontier ++
        store.interfacesFrom levels (freshIn seen frontier ++ seen)
          ((freshIn seen frontier).flatMap store.interfaces) := by
  rw [interfacesFrom, ← freshIn]
  cases fresh : freshIn seen frontier with
  | nil => simp [interfacesFrom_nil]
  | cons first rest => rfl

/-! ## All levels -/

/-- A class not seen that interface edges lead to from the frontier, none of them
leaving a class that is seen. -/
def LeadsTo (store : Store) (seen frontier : List ClassId) (id : ClassId) : Prop :=
  id ∉ seen ∧ ∃ first ∈ frontier,
    ReflTransGen (fun sub above => above ∈ store.interfaces sub ∧ sub ∉ seen) first id

theorem leadsTo_nil : ¬ store.LeadsTo seen [] id := by
  simp [LeadsTo]

/-- What a frontier leads to is on it, or what its interfaces lead to. -/
theorem leadsTo_iff_fresh :
    store.LeadsTo seen frontier id ↔
      id ∈ freshIn seen frontier ∨
        store.LeadsTo (freshIn seen frontier ++ seen)
          ((freshIn seen frontier).flatMap store.interfaces) id := by
  constructor
  · rintro ⟨new, first, queued, path⟩
    by_cases here : id ∈ freshIn seen frontier
    · exact .inl here
    · refine .inr ⟨by simp [here, new], ?_⟩
      -- What lies behind the last fresh class of the path leaves no fresh class.
      rcases path_after_last_visit (· ∈ freshIn seen frontier) path with
        avoiding | ⟨last, next, fresh, ⟨edge, -⟩, rest⟩
      · rcases avoiding.cases_head with rfl | ⟨_, ⟨⟨-, unseenFirst⟩, notFresh⟩, -⟩
        · exact absurd (mem_freshIn_iff.mpr ⟨queued, new⟩) here
        · exact absurd (mem_freshIn_iff.mpr ⟨queued, unseenFirst⟩) notFresh
      · refine ⟨next, List.mem_flatMap.mpr ⟨last, fresh, edge⟩, ReflTransGen.mono ?_ _ _ rest⟩
        rintro sub above ⟨⟨edge, old⟩, notFresh⟩
        exact ⟨edge, by simp [notFresh, old]⟩
  · rintro (here | ⟨new, next, queued, path⟩)
    · obtain ⟨queued, new⟩ := mem_freshIn_iff.mp here
      exact ⟨new, id, queued, .refl⟩
    · obtain ⟨sub, fresh, edge⟩ := List.mem_flatMap.mp queued
      obtain ⟨subQueued, subNew⟩ := mem_freshIn_iff.mp fresh
      have wider : ReflTransGen (fun sub above => above ∈ store.interfaces sub ∧ sub ∉ seen)
          next id := by
        refine ReflTransGen.mono ?_ _ _ path
        rintro lower above ⟨edge, apart⟩
        exact ⟨edge, fun old => apart (List.mem_append_right _ old)⟩
      exact ⟨fun old => new (List.mem_append_right _ old), sub, subQueued,
        .head ⟨edge, subNew⟩ wider⟩

theorem mem_interfacesFrom_iff {levels : Nat}
    (enough : frontier ≠ [] → store.unseen seen < levels) :
    id ∈ store.interfacesFrom levels seen frontier ↔ store.LeadsTo seen frontier id := by
  induction levels generalizing seen frontier with
  | zero =>
      have nothing : frontier = [] := by
        by_contra waiting
        exact Nat.not_lt_zero _ (enough waiting)
      simp [nothing, interfacesFrom, leadsTo_nil]
  | succ levels ih =>
      rw [interfacesFrom_succ, List.mem_append, leadsTo_iff_fresh, ih (enough_levels enough)]

/-! ## The line and its interfaces -/

/-- A class, or one of its superclasses. -/
def OnLine (store : Store) (start id : ClassId) : Prop :=
  ∃ height, ascent store.superclass? start height = some id

/-- An interface of a class on the line, or one that such an interface extends. -/
def Inherits (store : Store) (start id : ClassId) : Prop :=
  ∃ here, store.OnLine start here ∧
    TransGen (fun sub above => above ∈ store.interfaces sub) here id

theorem mem_superclassChain_iff : id ∈ store.superclassChain start ↔ store.OnLine start id :=
  mem_lineOf_iff (fun _ _ => mem_ids_of_superclass?) (Scope.length_ids_lt_walkBound store)

theorem firstIn_superclassChain_iff {P : ClassId → Prop} :
    FirstIn P (store.superclassChain start) id ↔
      ∃ height, FirstOf (ascent store.superclass? start) P height id :=
  firstIn_lineOf_iff (fun _ _ => mem_ids_of_superclass?) (Scope.length_ids_lt_walkBound store)

theorem unseen_lt_walkBound (store : Store) (seen : List ClassId) :
    store.unseen seen < store.walkBound :=
  Nat.lt_of_le_of_lt (List.length_filter_le _ _) (Scope.length_ids_lt_walkBound store)

/-- The interfaces that are gathered, those left out that the line has visited. -/
theorem mem_line_or_leadsTo_iff
    (onLine : ∀ id, id ∈ line ↔ store.OnLine start id) :
    id ∈ line ∨ store.LeadsTo line (line.flatMap store.interfaces) id ↔
      store.OnLine start id ∨ store.Inherits start id := by
  rw [onLine]
  constructor
  · rintro (here | ⟨-, first, queued, path⟩)
    · exact .inl here
    · obtain ⟨here, member, edge⟩ := List.mem_flatMap.mp queued
      refine .inr ⟨here, (onLine here).mp member, .head' edge ?_⟩
      exact ReflTransGen.mono (fun _ _ step => step.1) _ _ path
  · rintro (here | ⟨here, member, path⟩)
    · exact .inl here
    · by_cases back : store.OnLine start id
      · exact .inl back
      · refine .inr ⟨fun old => back ((onLine id).mp old), ?_⟩
        rcases path_after_last_visit (· ∈ line) path.to_reflTransGen with
          avoiding | ⟨last, next, visited, edge, rest⟩
        · rcases avoiding.cases_head with rfl | ⟨_, ⟨-, apart⟩, -⟩
          · exact absurd member back
          · exact absurd ((onLine here).mpr member) apart
        · exact ⟨next, List.mem_flatMap.mpr ⟨last, visited, edge⟩, rest⟩

/-- The line is left for its interfaces only if all of it is defined. -/
theorem mem_publicOrder_iff :
    id ∈ store.publicOrder start ↔
      store.OnLine start id ∨
        (∀ here, store.OnLine start here → (store.class? here).isSome) ∧
          store.Inherits start id := by
  have whole : ((store.superclassChain start).all fun here => (store.class? here).isSome) = true ↔
      ∀ here, store.OnLine start here → (store.class? here).isSome = true := by
    simp only [List.all_eq_true, mem_superclassChain_iff]
  rw [publicOrder]
  split
  · rename_i defined
    rw [List.mem_append, mem_interfacesFrom_iff fun _ => unseen_lt_walkBound store _,
      mem_line_or_leadsTo_iff fun _ => mem_superclassChain_iff]
    simp only [and_iff_right (whole.mp defined)]
  · rename_i broken
    simp [mem_superclassChain_iff, mt whole.mpr broken]

theorem exists_publicOrder_append (store : Store) (start : ClassId) :
    ∃ interfaces, store.publicOrder start = store.superclassChain start ++ interfaces := by
  rw [publicOrder]
  split
  · exact ⟨_, rfl⟩
  · exact ⟨[], by simp⟩

/-- Interfaces are supertypes, like superclasses. -/
theorem ancestor_of_mem_publicOrder (visited : id ∈ store.publicOrder start) :
    ReflTransGen store.DirectSupertype start id := by
  rcases mem_publicOrder_iff.mp visited with ⟨height, climbed⟩ |
    ⟨-, here, ⟨height, climbed⟩, path⟩
  · exact ancestor_of_ascent climbed
  · exact (ancestor_of_ascent climbed).trans
      (ReflTransGen.mono (fun _ _ => directSupertype_of_mem_interfaces) _ _ path.to_reflTransGen)

/-! ## The member that is found -/

section Members

variable {name : String} {types : List Ty} {member : Member}

/-- A public member of the name with exactly these formal types. -/
structure PublicAs (name : String) (types : List Ty) (member : Member) : Prop where
  isOpen : member.visibility = .publicAccess
  named : member.name = name
  typed : member.params = types

def DeclaresPublic (store : Store) (name : String) (types : List Ty) (id : ClassId) : Prop :=
  ∃ member ∈ store.members id, PublicAs name types member

theorem publicAs_iff :
    PublicAs name types member ↔
      (member.isPublic && member.name = name && member.params = types) = true := by
  constructor
  · rintro ⟨isOpen, named, typed⟩
    simp [MemberDef.isPublic, isOpen, named, typed]
  · intro passes
    obtain ⟨⟨isOpen, named⟩, typed⟩ := by simpa [MemberDef.isPublic] using passes
    exact ⟨isOpen, named, typed⟩

theorem publicMember?_eq_some_iff :
    store.publicMember? name types id = some member ↔
      FirstIn (PublicAs name types) (store.members id) member := by
  rw [publicMember?, ← firstIn_iff_find?]
  simp only [← publicAs_iff]

theorem exists_publicMember?_iff :
    (∃ member, store.publicMember? name types id = some member) ↔
      store.DeclaresPublic name types id := by
  simp only [publicMember?, ← Option.isSome_iff_exists, List.find?_isSome, DeclaresPublic,
    publicAs_iff]

theorem findPublic?_eq_some_iff :
    store.findPublic? start name types = some member ↔
      ∃ id, FirstIn (store.DeclaresPublic name types) (store.publicOrder start) id ∧
        FirstIn (PublicAs name types) (store.members id) member := by
  rw [findPublic?, ← firstIn_iff_findSome?]
  simp only [exists_publicMember?_iff]
  refine exists_congr fun id => ?_
  rw [publicMember?_eq_some_iff, and_comm]

theorem exists_findPublic?_iff :
    (∃ member, store.findPublic? start name types = some member) ↔
      ∃ id ∈ store.publicOrder start, store.DeclaresPublic name types id := by
  simp only [findPublic?, ← Option.isSome_iff_exists, List.findSome?_isSome_iff,
    ← exists_publicMember?_iff]

/-- The nearest class of the line that declares such a member gives its first one. -/
theorem findPublic?_of_nearest {height : Nat}
    (nearest : FirstOf (ascent store.superclass? start) (store.DeclaresPublic name types)
      height id) :
    store.findPublic? start name types = some member ↔
      FirstIn (PublicAs name types) (store.members id) member := by
  obtain ⟨interfaces, order⟩ := exists_publicOrder_append store start
  have first : FirstIn (store.DeclaresPublic name types) (store.publicOrder start) id := by
    rw [order]
    exact (firstIn_superclassChain_iff.mpr ⟨height, nearest⟩).append interfaces
  rw [findPublic?_eq_some_iff]
  constructor
  · rintro ⟨other, again, declared⟩
    rwa [first.unique again]
  · exact fun declared => ⟨id, first, declared⟩

/-- What is not declared on the line comes from an interface. -/
theorem inherits_of_findPublic? (found : store.findPublic? start name types = some member)
    (absent : ∀ here, store.OnLine start here → ¬ store.DeclaresPublic name types here) :
    ∃ id, store.Inherits start id ∧ FirstIn (PublicAs name types) (store.members id) member := by
  obtain ⟨id, first, declared⟩ := findPublic?_eq_some_iff.mp found
  rcases mem_publicOrder_iff.mp first.mem with onLine | ⟨-, inherited⟩
  · exact absurd first.holds (absent id onLine)
  · exact ⟨id, inherited, declared⟩

theorem Reachable.isSubclass_of_findPublic? (reached : store.Reachable)
    (found : store.findPublic? start name types = some member) :
    store.isSubclass start member.declaringClass = true := by
  obtain ⟨id, first, declared⟩ := findPublic?_eq_some_iff.mp found
  rw [reached.declaringClass declared.mem]
  exact isSubclass_of_path (ancestor_of_mem_publicOrder first.mem)

/-- An instance of the class can receive a call of what is found on it. -/
theorem Reachable.bindReceiver_of_findPublic? (reached : store.Reachable)
    (found : store.findPublic? start name types = some member) {value : Value}
    (runtime : value.classId? = some start) :
    store.bindReceiver (some value) member =
      .ok (if member.isStatic then none else some ⟨value, start⟩) := by
  cases sort : member.isStatic with
  | true => rw [bindReceiver_of_static sort, if_pos rfl]
  | false =>
      rw [bindReceiver_eq_ok_iff sort]
      exact ⟨value, start, rfl, runtime, reached.isSubclass_of_findPublic? found, by simp⟩

end Members

end MemberDispatch.Store
