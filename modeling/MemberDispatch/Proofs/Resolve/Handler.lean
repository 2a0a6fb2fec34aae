import MemberDispatch.Proofs.Hierarchy.Walk
import MemberDispatch.Proofs.Outcome
import MemberDispatch.Resolve.Handler

/-!
# Which member handles

The handler search passes over the classes that declare no possible handler, and
decides on the first class that declares any: it has to be the only one there.
-/

set_option autoImplicit false

namespace MemberDispatch.Scope

variable {scope : Scope}

theorem mem_handlersIn_iff {id : ClassId} {member : Member} :
    member ∈ scope.handlersIn id ↔
      member ∈ scope.store.members id ∧ member.isPrivate = false ∧ member.isStatic = false := by
  simp [handlersIn]

/-- A class of the chain before which no class declares a possible handler. -/
def FirstHandling (scope : Scope) (start id : ClassId) : Prop :=
  ∃ before after, scope.chain start = before ++ id :: after ∧
    ∀ skipped ∈ before, scope.handlersIn skipped = []

theorem handlerLevel?_eq_some_iff {start id : ClassId} {members : List Member} :
    scope.handlerLevel? start = some (id, members) ↔
      scope.FirstHandling start id ∧ scope.handlersIn id = members ∧ members ≠ [] := by
  rw [handlerLevel?, List.findSome?_eq_some_iff]
  constructor
  · rintro ⟨before, visited, after, chain, found, skipped⟩
    split at found
    · cases found
    · rename_i some
      cases found
      refine ⟨⟨before, after, chain, ?_⟩, rfl, some⟩
      intro passed member
      have none := skipped passed member
      split at none
      · assumption
      · cases none
  · rintro ⟨⟨before, after, chain, skipped⟩, rfl, some⟩
    refine ⟨before, id, after, chain, ?_, ?_⟩
    · split
      · contradiction
      · rfl
    · intro passed member
      rw [skipped passed member]

theorem handlerOf_eq_ok_iff {start id : ClassId} {member : Member} :
    scope.handlerOf start = .ok (id, member) ↔
      scope.FirstHandling start id ∧ scope.handlersIn id = [member] := by
  rw [handlerOf]
  constructor
  · intro found
    split at found
    · cases found
    · cases found
    · rename_i level
      cases Except.ok.inj found
      obtain ⟨first, handlers, _⟩ := handlerLevel?_eq_some_iff.mp level
      exact ⟨first, handlers⟩
    · cases found
  · rintro ⟨first, handlers⟩
    have level : scope.handlerLevel? start = some (id, [member]) :=
      handlerLevel?_eq_some_iff.mpr ⟨first, handlers, by simp⟩
    rw [level]

theorem findHandler_eq_ok_iff {handler : Value} {member : Member} :
    scope.findHandler handler = .ok member ↔
      ∃ start id, handler.classId? = some start ∧
        scope.FirstHandling start id ∧ scope.handlersIn id = [member] := by
  rw [findHandler]
  cases runtime : handler.classId? with
  | none => simp
  | some start =>
      dsimp only
      constructor
      · intro found
        obtain ⟨pair, handles, rfl⟩ := exists_of_map_eq_ok found
        exact ⟨start, pair.1, rfl, handlerOf_eq_ok_iff.mp handles⟩
      · rintro ⟨other, id, same, handled⟩
        cases Option.some.inj same
        rw [handlerOf_eq_ok_iff.mpr handled]
        rfl

theorem exists_mem_handlersIn {handler : Value} {member : Member}
    (found : scope.findHandler handler = .ok member) : ∃ id, member ∈ scope.handlersIn id := by
  obtain ⟨_, id, _, _, handlers⟩ := findHandler_eq_ok_iff.mp found
  exact ⟨id, by simp [handlers]⟩

theorem ancestor_of_firstHandling {start id : ClassId} (first : scope.FirstHandling start id) :
    Relation.ReflTransGen scope.store.DirectSupertype start id := by
  obtain ⟨before, after, chain, _⟩ := first
  apply Store.ancestor_of_mem_classChain
  rw [← Scope.chain, chain]
  simp

end MemberDispatch.Scope
