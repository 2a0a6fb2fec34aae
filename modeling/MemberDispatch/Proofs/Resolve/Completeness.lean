import MemberDispatch.Proofs.Hierarchy.Lineage
import MemberDispatch.Proofs.Resolve.Suitability

/-!
# Resolution is sound and complete

Whatever the hierarchy looks like, resolution finds a member exactly if some
class of the start's lineage declares one that suits the query, and what it finds
is such a member.
-/

set_option autoImplicit false

namespace MemberDispatch.Scope

variable {scope : Scope} {query : Query} {start : ClassId} {declared supplied : List Ty}

/-- The class declares a member that suits the query. -/
def Provides (scope : Scope) (query : Query) (id : ClassId) : Prop :=
  ∃ member ∈ scope.store.members id, ∃ real, scope.Suits query member real

/-- The context is left out exactly where it leads a list that is longer by one. -/
theorem skipsContext?_eq_true_iff {takesContext : Bool}
    (counted : scope.skipsContext? declared supplied = some takesContext) :
    takesContext = true ↔ declared.length = supplied.length + 1 ∧
      ∃ context, scope.context = some context ∧ declared.head? = some (.ofClass context) := by
  rw [skipsContext?] at counted
  split at counted
  · rename_i whole
    cases counted
    simp [whole]
  · split at counted
    · rename_i oneMore
      split at counted
      · rename_i context first convention leads
        simp only [Option.ite_none_right_eq_some, Option.some.injEq] at counted
        obtain ⟨rfl, rfl⟩ := counted
        simp [oneMore, convention, leads]
      · cases counted
    · cases counted

theorem exists_resolve_iff :
    (∃ found, scope.resolve query start = some found) ↔
      ∃ id ∈ scope.chain start, scope.Provides query id := by
  constructor
  · rintro ⟨found, resolved⟩
    obtain ⟨id, visited, represents⟩ := resolve_represents resolved
    have accepted := candidateIn_accepted represents
    exact ⟨id, visited, found.member, accepted.declared, found.realParams, accepted.suits⟩
  · rintro ⟨id, visited, member, declares, real, suits⟩
    obtain ⟨candidate, accepted⟩ := suits.exists_accepted declares
    obtain ⟨kept, represents⟩ := accepted.exists_representative
    have listed : kept ∈ scope.representatives query start :=
      List.mem_filterMap.mpr ⟨id, visited, represents⟩
    rw [← Option.isSome_iff_exists, Option.isSome_iff_ne_none, resolve_eq_champion?, ne_eq,
      champion?_eq_none_iff]
    exact List.ne_nil_of_mem listed

/-- The classes searched are the one lineage of the start, finite on every store;
a member is found exactly if one of them declares a member that suits the query,
and the one found is declared there, suits, and takes the context exactly if its
list is longer than the query's by the leading context. -/
theorem resolve_sound_complete (scope : Scope) (query : Query) (start : ClassId) :
    (∀ classes, scope.store.Lineage scope.root start classes ↔ classes = scope.chain start) ∧
      (∀ id ∈ scope.chain start, scope.store.class? id = none →
        (scope.chain start).getLast? = some id) ∧
      (scope.chain start).length ≤ scope.store.size + 1 ∧
      ((∃ found, scope.resolve query start = some found) ↔
        ∃ id ∈ scope.chain start, scope.Provides query id) ∧
      ∀ found, scope.resolve query start = some found →
        (∃ id ∈ scope.chain start, found.member ∈ scope.store.members id) ∧
          scope.Suits query found.member found.realParams ∧
          (found.takesContext = true ↔
            found.member.params.length = query.types.length + 1 ∧
              ∃ context, scope.context = some context ∧
                found.member.params.head? = some (.ofClass context)) := by
  refine ⟨fun _ => lineage_iff, ?_, length_chain_le scope start, exists_resolve_iff, ?_⟩
  · intro id visited undefined
    exact (lineage_chain scope start).last_of_undefined visited undefined
  · intro found resolved
    obtain ⟨id, visited, represents⟩ := resolve_represents resolved
    have accepted := candidateIn_accepted represents
    exact ⟨⟨id, visited, accepted.declared⟩, accepted.suits,
      skipsContext?_eq_true_iff accepted.counted⟩

end MemberDispatch.Scope
