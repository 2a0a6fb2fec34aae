import MemberDispatch.Proofs.Hierarchy.Worklist
import MemberDispatch.Proofs.Resolve.PublicMembers
import MemberDispatch.Proofs.Store.Changes

/-!
# Public members, one class a turn

A public member can also be searched one class a turn.  The search first climbs
the line of superclasses and puts the interfaces it meets there into a queue; then
it takes the queue from the front, and puts what an interface extends at the back.
Both phases share the classes they have seen.  A turn uses up the line, a queued
class or the edges of a new one, so that the search ends on every store, with the
answer of `findPublic?`.
-/

set_option autoImplicit false

namespace MemberDispatch

open Relation

/-- A search under way: the class of the line it looks at next, if it is still
there, the interfaces it still has to look at, and the classes it has seen. -/
structure PublicSearch where
  line : Option ClassId
  queue : List ClassId
  seen : List ClassId

namespace PublicSearch

def start (id : ClassId) : PublicSearch := ⟨some id, [], []⟩

/-- One turn: an answer, or what is left of the search.  On the line an undefined
class is the end of the search; in the queue it has nothing to offer. -/
def turn (store : Store) (name : String) (types : List Ty) :
    PublicSearch → Option Member ⊕ PublicSearch
  | ⟨some id, queue, seen⟩ =>
    if seen.contains id then .inr ⟨none, queue, seen⟩
    else
      match store.class? id with
      | none => .inl none
      | some info =>
        match store.publicMember? name types id with
        | some member => .inl (some member)
        | none => .inr ⟨info.superclass, queue ++ info.interfaces, id :: seen⟩
  | ⟨none, [], _⟩ => .inl none
  | ⟨none, id :: queue, seen⟩ =>
    if seen.contains id then .inr ⟨none, queue, seen⟩
    else
      match store.publicMember? name types id with
      | some member => .inl (some member)
      | none => .inr ⟨none, queue ++ store.interfaces id, id :: seen⟩

/-- The answer of a search that may take so many turns. -/
def answerWithin (store : Store) (name : String) (types : List Ty) :
    Nat → PublicSearch → Option (Option Member)
  | 0, _ => none
  | turns + 1, search =>
    match search.turn store name types with
    | .inl answer => some answer
    | .inr next => next.answerWithin store name types turns

/-- A search that ends with an answer, after any number of turns. -/
inductive Ends (store : Store) (name : String) (types : List Ty) :
    PublicSearch → Option Member → Prop where
  | now {search : PublicSearch} {answer : Option Member}
      (turned : search.turn store name types = .inl answer) : Ends store name types search answer
  | later {search next : PublicSearch} {answer : Option Member}
      (turned : search.turn store name types = .inr next)
      (rest : Ends store name types next answer) : Ends store name types search answer

variable {store : Store} {name : String} {types : List Ty} {search next : PublicSearch}
variable {answer : Option Member} {id : ClassId} {queue seen frontier later : List ClassId}

/-! ## One turn -/

/-- All that a turn can do: four things on the line, and four in the queue. -/
inductive Turns (store : Store) (name : String) (types : List Ty) :
    PublicSearch → Option Member ⊕ PublicSearch → Prop where
  | returns {id : ClassId} {queue seen : List ClassId} (old : id ∈ seen) :
      Turns store name types ⟨some id, queue, seen⟩ (.inr ⟨none, queue, seen⟩)
  | strays {id : ClassId} {queue seen : List ClassId} (new : id ∉ seen)
      (undefined : store.class? id = none) :
      Turns store name types ⟨some id, queue, seen⟩ (.inl none)
  | meets {id : ClassId} {queue seen : List ClassId} {info : ClassInfo} {member : Member}
      (new : id ∉ seen) (defined : store.class? id = some info)
      (offers : store.publicMember? name types id = some member) :
      Turns store name types ⟨some id, queue, seen⟩ (.inl (some member))
  | climbs {id : ClassId} {queue seen : List ClassId} {info : ClassInfo}
      (new : id ∉ seen) (defined : store.class? id = some info)
      (offers : store.publicMember? name types id = none) :
      Turns store name types ⟨some id, queue, seen⟩
        (.inr ⟨info.superclass, queue ++ store.interfaces id, id :: seen⟩)
  | exhausted (seen : List ClassId) : Turns store name types ⟨none, [], seen⟩ (.inl none)
  | skips {id : ClassId} {queue seen : List ClassId} (old : id ∈ seen) :
      Turns store name types ⟨none, id :: queue, seen⟩ (.inr ⟨none, queue, seen⟩)
  | finds {id : ClassId} {queue seen : List ClassId} {member : Member} (new : id ∉ seen)
      (offers : store.publicMember? name types id = some member) :
      Turns store name types ⟨none, id :: queue, seen⟩ (.inl (some member))
  | expands {id : ClassId} {queue seen : List ClassId} (new : id ∉ seen)
      (offers : store.publicMember? name types id = none) :
      Turns store name types ⟨none, id :: queue, seen⟩
        (.inr ⟨none, queue ++ store.interfaces id, id :: seen⟩)

theorem turns_turn (store : Store) (name : String) (types : List Ty) (search : PublicSearch) :
    Turns store name types search (search.turn store name types) := by
  obtain ⟨line, queue, seen⟩ := search
  cases line with
  | some id =>
      rw [turn]
      split
      · rename_i old
        exact .returns (by simpa using old)
      · rename_i fresh
        have new : id ∉ seen := by simpa using fresh
        split
        · rename_i undefined
          exact .strays new undefined
        · rename_i info defined
          split
          · rename_i member offers
            exact .meets new defined offers
          · rename_i offers
            rw [← Store.interfaces_of_class? defined]
            exact .climbs new defined offers
  | none =>
      cases queue with
      | nil => exact .exhausted seen
      | cons id queue =>
          rw [turn]
          split
          · rename_i old
            exact .skips (by simpa using old)
          · rename_i fresh
            have new : id ∉ seen := by simpa using fresh
            split
            · rename_i member offers
              exact .finds new offers
            · rename_i offers
              exact .expands new offers

theorem Turns.turn_eq {outcome : Option Member ⊕ PublicSearch}
    (turns : Turns store name types search outcome) :
    search.turn store name types = outcome := by
  cases turns with
  | returns old => simp [turn, old]
  | strays new undefined => simp [turn, new, undefined]
  | meets new defined offers => simp [turn, new, defined, offers]
  | climbs new defined offers => simp [turn, new, defined, offers, Store.interfaces_of_class? defined]
  | exhausted seen => rfl
  | skips old => simp [turn, old]
  | finds new offers => simp [turn, new, offers]
  | expands new offers => simp [turn, new, offers]

/-! ## How long it takes -/

/-- The edges of a class that is seen have been followed. -/
def effort (store : Store) (search : PublicSearch) : Nat :=
  search.line.toList.length + search.queue.length + Worklist.openEdges store search.seen

theorem effort_lt (goesOn : search.turn store name types = .inr next) :
    next.effort store < search.effort store := by
  have turned := turns_turn store name types search
  rw [goesOn] at turned
  cases turned with
  | returns old => simp [effort]
  | @climbs id queue seen info new defined offers =>
      have closed := Worklist.openEdges_cons store new
      simp only [Store.supertypes, defined, Option.map_some, Option.getD_some,
        ClassInfo.supertypes, List.length_append] at closed
      simp only [effort, Store.interfaces_of_class? defined, List.length_append, Option.toList_some,
        List.length_singleton]
      omega
  | skips old => simp [effort]
  | @expands id queue seen new offers =>
      have closed := Worklist.openEdges_cons store new
      have fewer := Store.length_interfaces_le store id
      simp only [effort, List.length_append, List.length_cons]
      omega

theorem Ends.answerWithin_eq (ends : Ends store name types search answer) {turns : Nat}
    (enough : search.effort store < turns) :
    search.answerWithin store name types turns = some answer := by
  induction ends generalizing turns with
  | now turned =>
      cases turns with
      | zero => omega
      | succ turns => rw [answerWithin, turned]
  | later turned rest ih =>
      cases turns with
      | zero => omega
      | succ turns =>
          rw [answerWithin, turned]
          have less := effort_lt turned
          exact ih (by omega)

/-! ## The queue -/

/-- The front of the queue is a level of the search by levels: the search finds a
member there, or goes on with what the level has left behind. -/
theorem ends_frontier
    (rest : Ends store name types
      ⟨none, later ++ (Store.freshIn seen frontier).flatMap store.interfaces,
        (Store.freshIn seen frontier).reverse ++ seen⟩ answer) :
    Ends store name types ⟨none, frontier ++ later, seen⟩
      (((Store.freshIn seen frontier).findSome? (store.publicMember? name types)).or answer) := by
  -- What the level leads to queues up behind what was waiting there before.
  induction frontier generalizing seen later with
  | nil => simpa [Store.freshIn] using rest
  | cons id frontier ih =>
      by_cases old : id ∈ seen
      · rw [Store.freshIn_cons_of_mem old] at rest ⊢
        exact .later (Turns.skips old).turn_eq (ih rest)
      · rw [Store.freshIn_cons_of_not_mem old] at rest ⊢
        rw [List.findSome?_cons, List.cons_append]
        cases offers : store.publicMember? name types id with
        | some member => exact .now (Turns.finds old offers).turn_eq
        | none =>
            refine .later (Turns.expands old offers).turn_eq ?_
            rw [List.append_assoc]
            exact ih (by simpa using rest)

theorem ends_interfacesFrom {levels : Nat} {marked : List ClassId}
    (same : ∀ id, id ∈ marked ↔ id ∈ seen)
    (enough : frontier ≠ [] → store.unseen seen < levels) :
    Ends store name types ⟨none, frontier, marked⟩
      ((store.interfacesFrom levels seen frontier).findSome? (store.publicMember? name types)) := by
  induction levels generalizing seen marked frontier with
  | zero =>
      have nothing : frontier = [] := by
        by_contra waiting
        exact Nat.not_lt_zero _ (enough waiting)
      subst nothing
      exact .now rfl
  | succ levels ih =>
      have level : Store.freshIn marked frontier = Store.freshIn seen frontier :=
        Store.freshIn_congr same
      have sameNext : ∀ id, id ∈ (Store.freshIn seen frontier).reverse ++ marked ↔
          id ∈ Store.freshIn seen frontier ++ seen := by
        simp [same]
      have rest := ih sameNext (Store.enough_levels enough)
      rw [Store.interfacesFrom_succ, List.findSome?_append]
      rw [← level] at rest ⊢
      have whole : Ends store name types ⟨none, frontier ++ [], marked⟩ _ := ends_frontier rest
      rwa [List.append_nil] at whole

/-! ## The line -/

/-- The rest of a line, as far as it is not seen. -/
def lineFrom (store : Store) (seen : List ClassId) (bound : Nat) (id : ClassId) : List ClassId :=
  beforeRepeat seen (walk store.superclass? bound id)

theorem lineFrom_of_mem {bound : Nat} (old : id ∈ seen) :
    lineFrom store seen (bound + 1) id = [] := by
  simp [lineFrom, walk, beforeRepeat, old]

theorem lineFrom_of_not_mem {bound : Nat} (new : id ∉ seen) :
    lineFrom store seen (bound + 1) id =
      id :: ((store.superclass? id).map (lineFrom store (id :: seen) bound)).getD [] := by
  rw [lineFrom, walk, beforeRepeat, if_neg (by simpa using new)]
  cases store.superclass? id <;> simp [lineFrom, beforeRepeat]

/-- The search finds a member on the line, or the line leaves the defined classes,
or the search goes on with the interfaces of the line. -/
theorem ends_line {bound : Nat} (enough : store.unseen seen < bound)
    (rest : Ends store name types
      ⟨none, queue ++ (lineFrom store seen bound id).flatMap store.interfaces,
        (lineFrom store seen bound id).reverse ++ seen⟩ answer) :
    Ends store name types ⟨some id, queue, seen⟩
      (((lineFrom store seen bound id).findSome? (store.publicMember? name types)).or
        (if (lineFrom store seen bound id).all fun here => (store.class? here).isSome
          then answer else none)) := by
  induction bound generalizing id queue seen with
  | zero => omega
  | succ bound ih =>
      by_cases old : id ∈ seen
      · rw [lineFrom_of_mem old] at rest ⊢
        exact .later (Turns.returns old).turn_eq (by simpa using rest)
      · rw [lineFrom_of_not_mem old] at rest ⊢
        cases defined : store.class? id with
        | none =>
            have stops : store.superclass? id = none := by simp [Store.superclass?, defined]
            have empty : store.publicMember? name types id = none := by
              simp [Store.publicMember?, Store.members, defined]
            simpa [stops, empty, defined] using Ends.now (Turns.strays old defined).turn_eq
        | some info =>
            cases offers : store.publicMember? name types id with
            | some member =>
                simpa [offers] using Ends.now (Turns.meets old defined offers).turn_eq
            | none =>
                refine .later (Turns.climbs old defined offers).turn_eq ?_
                have superclassEq : store.superclass? id = info.superclass := by
                  simp [Store.superclass?, defined]
                rw [superclassEq] at rest ⊢
                cases above : info.superclass with
                | none => simpa [above, offers, defined] using rest
                | some superclass =>
                    have less : store.unseen (id :: seen) < store.unseen seen :=
                      Store.unseen_lt (Store.mem_ids_of_class? defined) old List.mem_cons_self
                        fun _ => List.mem_cons_of_mem id
                    rw [above] at rest
                    have onward : Ends store name types
                        ⟨some superclass, queue ++ store.interfaces id, id :: seen⟩ _ :=
                      ih (Nat.lt_of_lt_of_le less (Nat.le_of_lt_succ enough))
                        (by simpa using rest)
                    simpa [offers, defined] using onward

/-- On every store, cyclic or not, the search ends with the member that the lookup
finds. -/
theorem ends_start (store : Store) (name : String) (types : List Ty) (id : ClassId) :
    Ends store name types (start id) (store.findPublic? id name types) := by
  have line : lineFrom store [] store.walkBound id = store.superclassChain id := rfl
  have interfaces : Ends store name types
      ⟨none, (store.superclassChain id).flatMap store.interfaces,
        (store.superclassChain id).reverse⟩
      ((store.interfacesFrom store.walkBound (store.superclassChain id)
        ((store.superclassChain id).flatMap store.interfaces)).findSome?
          (store.publicMember? name types)) :=
    ends_interfacesFrom (fun _ => List.mem_reverse) fun _ => Store.unseen_lt_walkBound store _
  have whole := ends_line (Store.unseen_lt_walkBound store [])
    (by rwa [line, List.nil_append, List.append_nil])
  rw [line] at whole
  rw [Store.findPublic?, Store.publicOrder]
  split
  · rename_i defined
    rw [if_pos defined] at whole
    rwa [List.findSome?_append]
  · rename_i broken
    rwa [if_neg broken, Option.or_none] at whole

theorem answerWithin_start {turns : Nat} (enough : store.edgeCount + 1 < turns) :
    (start id).answerWithin store name types turns = some (store.findPublic? id name types) := by
  refine (ends_start store name types id).answerWithin_eq ?_
  have edges : Worklist.openEdges store [] = store.edgeCount := by
    simp [Worklist.openEdges, Store.edgeCount]
  simp only [effort, start, Option.toList_some, List.length_singleton, List.length_nil, edges]
  omega

end PublicSearch

/-- A public lookup finds a member exactly if a class of the line declares one, or
all of the line is defined and one of its interfaces does.  It finds the first
member of the nearest class of the line that declares one, and one of an interface
only where no class of the line does.  An instance of the class can receive a call
of it.  The search for it ends within two turns more than the store has edges. -/
theorem Store.publicLookup_searches_line_then_interfaces (store : Store) (start : ClassId)
    (name : String) (types : List Ty) :
    ((∃ member, store.findPublic? start name types = some member) ↔
        (∃ id, store.OnLine start id ∧ store.DeclaresPublic name types id) ∨
          (∀ id, store.OnLine start id → (store.class? id).isSome) ∧
            ∃ id, store.Inherits start id ∧ store.DeclaresPublic name types id) ∧
      (∀ height id, FirstOf (ascent store.superclass? start) (store.DeclaresPublic name types)
          height id →
        ∀ member, store.findPublic? start name types = some member ↔
          FirstIn (PublicAs name types) (store.members id) member) ∧
      (∀ member, store.findPublic? start name types = some member →
        (∀ id, store.OnLine start id → ¬ store.DeclaresPublic name types id) →
          ∃ id, store.Inherits start id ∧
            FirstIn (PublicAs name types) (store.members id) member) ∧
      (store.Reachable → ∀ member, store.findPublic? start name types = some member →
        store.isSubclass start member.declaringClass = true ∧
          ∀ value, value.classId? = some start →
            store.bindReceiver (some value) member =
              .ok (if member.isStatic then none else some ⟨value, start⟩)) ∧
      ∀ more, (PublicSearch.start start).answerWithin store name types
        (store.edgeCount + 2 + more) = some (store.findPublic? start name types) := by
  refine ⟨?_, ?_, ?_, ?_, ?_⟩
  · simp only [exists_findPublic?_iff, mem_publicOrder_iff, or_and_right, exists_or, and_assoc,
      exists_and_left]
  · exact fun height id nearest member => findPublic?_of_nearest nearest
  · exact fun member found absent => inherits_of_findPublic? found absent
  · intro reached member found
    exact ⟨reached.isSubclass_of_findPublic? found,
      fun value runtime => reached.bindReceiver_of_findPublic? found runtime⟩
  · intro more
    exact PublicSearch.answerWithin_start (by omega)

/-! ## Lamps

Whatever is lit shines.  A lamp is known with all its superclasses; the superclass
of a lantern is a number that nobody has defined. -/

namespace Lamps

open Store

def lit : ClassId := ⟨26⟩
def lantern : ClassId := ⟨27⟩
def lamp : ClassId := ⟨28⟩

def shine : MemberDef :=
  { name := "shine", params := [], returns := .ofClass .string, isStatic := false,
    visibility := .publicAccess, body := some (.give (.text "glow")) }

def classes : List ClassDef :=
  [{ platformInterface "Lit" with members := [shine] },
    platformClass "Lantern" (some ⟨99⟩) [lit],
    platformClass "Lamp" (some .object) [lit]]

def store : Store := platform.addAll classes

theorem store_reachable : store.Reachable := Reachable.platform.addAll classes

def onTable : Value := .object ⟨0, lamp, none⟩

theorem lit_declares_shine : store.DeclaresPublic "shine" [] lit := by
  rw [← exists_publicMember?_iff, ← Option.isSome_iff_exists]
  decide +kernel

/-- Neither the lamp nor the root declares what the lamp has from its interface. -/
theorem lamp_shines :
    ∃ member, store.findPublic? lamp "shine" [] = some member ∧
      (∃ id, store.Inherits lamp id ∧
        FirstIn (PublicAs "shine" []) (store.members id) member) ∧
      store.isSubclass lamp member.declaringClass = true ∧
      store.bindReceiver (some onTable) member = .ok (some ⟨onTable, lamp⟩) ∧
      (PublicSearch.start lamp).answerWithin store "shine" [] (store.edgeCount + 2) =
        some (some member) := by
  have absent : ∀ id, store.OnLine lamp id → ¬ store.DeclaresPublic "shine" [] id := by
    have computed : ∀ id ∈ store.superclassChain lamp,
        (store.publicMember? "shine" [] id).isSome = false := by
      decide +kernel
    intro id onLine
    rw [← exists_publicMember?_iff, ← Option.isSome_iff_exists,
      computed id (mem_superclassChain_iff.mpr onLine)]
    exact Bool.false_ne_true
  have computed : (store.findPublic? lamp "shine" []).any (fun found => !found.isStatic) := by
    decide +kernel
  obtain ⟨member, found, shown⟩ := (Option.any_eq_true _ _).mp computed
  have onInstances : member.isStatic = false := by simpa using shown
  obtain ⟨-, -, fromInterface, fits, ends⟩ :=
    publicLookup_searches_line_then_interfaces store lamp "shine" []
  obtain ⟨above, receives⟩ := fits store_reachable member found
  have bound := receives onTable rfl
  rw [onInstances, if_neg Bool.false_ne_true] at bound
  exact ⟨member, found, fromInterface member found absent, above, bound, found ▸ ends 0⟩

/-- The lantern has the same interface, but the undefined superclass hides it. -/
theorem lantern_dark :
    store.Reachable ∧ store.Inherits lantern lit ∧ store.DeclaresPublic "shine" [] lit ∧
      store.findPublic? lantern "shine" [] = none := by
  have edge : lit ∈ store.interfaces lantern := by decide +kernel
  refine ⟨store_reachable, ⟨lantern, ⟨0, rfl⟩, .single edge⟩, lit_declares_shine, ?_⟩
  rw [← Option.isNone_iff_eq_none]
  decide +kernel

end Lamps

end MemberDispatch
