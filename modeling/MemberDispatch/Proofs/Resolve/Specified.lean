import MemberDispatch.Proofs.Resolve.Nearest
import MemberDispatch.Proofs.Resolve.Suitability

/-!
# Members found by their parameter types

The exact mode accepts lists that boxing identifies with one another, so that
specificity never decides.  On any store, cyclic or not, the nearest class with
an accepted member is the only one that counts, and in it the first member with
the very types of the query, or else the first accepted one.
-/

set_option autoImplicit false

namespace MemberDispatch.Scope

variable {scope : Scope} {start id : ClassId} {name : String} {types : List Ty}
variable {member : Member} {real : List Ty}

structure Specifies (scope : Scope) (name : String) (types : List Ty) (member : Member)
    (real : List Ty) : Prop where
  named : member.name = name
  matched : scope.RealParams types.length member.params real
  equivalent : List.Forall₂ (fun param type => param.equivalent type = true) real types

/-- The class declares a member of the name with equivalent types. -/
def Offers (scope : Scope) (name : String) (types : List Ty) (id : ClassId) : Prop :=
  ∃ member ∈ scope.store.members id, ∃ real, scope.Specifies name types member real

/-- The first member of a class with the very types, or the first with
equivalent types where none has them. -/
def FirstSpecified (scope : Scope) (name : String) (types : List Ty) (id : ClassId)
    (member : Member) : Prop :=
  FirstIn (fun other => scope.Specifies name types other types) (scope.store.members id) member ∨
    (∀ other ∈ scope.store.members id, ¬ scope.Specifies name types other types) ∧
      FirstIn (fun other => ∃ real, scope.Specifies name types other real)
        (scope.store.members id) member

/-! ## Accepted members -/

/-- To be specified is to suit the exact mode. -/
theorem specifies_iff_suits :
    scope.Specifies name types member real ↔ scope.Suits ⟨name, types, .exact⟩ member real := by
  constructor
  · intro specifies
    exact ⟨specifies.named, specifies.matched, specifies.equivalent⟩
  · intro suits
    exact ⟨suits.named, suits.matched, suits.passes⟩

/-- Candidates of the exact mode are members with equivalent types. -/
theorem exists_candidate?_exact_iff :
    (∃ candidate, scope.candidate? ⟨name, types, .exact⟩ member = some candidate ∧
        candidate.realParams = real) ↔
      scope.Specifies name types member real :=
  exists_candidate?_iff.trans specifies_iff_suits.symm

theorem isExact_of_candidate? {candidate : Candidate}
    (accepted : scope.candidate? ⟨name, types, .exact⟩ member = some candidate) :
    isExact types candidate = true := by
  obtain ⟨-, -, -, admitted⟩ := candidate?_eq_some_iff.mp accepted
  exact isExact_iff.mpr (pairwise_equivalent_iff.mp admitted)

/-- The first candidate of a class is that of its first member that has one. -/
theorem exists_firstIn_candidatesIn_iff {query : Query} {P : Candidate → Prop}
    {Q : Member → Prop}
    (same : ∀ member, Q member ↔
      ∃ candidate, scope.candidate? query member = some candidate ∧ P candidate) :
    (∃ found, FirstIn P (scope.candidatesIn query id) found ∧ found.member = member) ↔
      FirstIn Q (scope.store.members id) member := by
  obtain rfl : Q = fun member =>
      ∃ candidate, scope.candidate? query member = some candidate ∧ P candidate :=
    funext fun member => propext (same member)
  simp only [candidatesIn, firstIn_filterMap]
  constructor
  · rintro ⟨found, ⟨other, accepted, first⟩, rfl⟩
    rwa [(candidate?_eq_some_iff.mp accepted).1]
  · intro first
    obtain ⟨candidate, accepted, _⟩ := first.holds
    exact ⟨candidate, ⟨member, accepted, first⟩, (candidate?_eq_some_iff.mp accepted).1⟩

theorem declares_exact_iff :
    scope.Declares ⟨name, types, .exact⟩ types id ↔ scope.Offers name types id := by
  constructor
  · rintro ⟨candidate, accepted, -⟩
    exact ⟨candidate.member, accepted.declared, candidate.realParams,
      exists_candidate?_exact_iff.mp ⟨candidate, accepted.candidate?_eq, rfl⟩⟩
  · rintro ⟨member, declared, real, specifies⟩
    obtain ⟨candidate, accepted, -⟩ := exists_candidate?_exact_iff.mpr specifies
    exact ⟨candidate, accepted_of_candidate? declared accepted, isExact_of_candidate? accepted⟩

theorem exists_takes_exact_iff :
    (∃ found, scope.Takes ⟨name, types, .exact⟩ types id found ∧ found.member = member) ↔
      scope.FirstSpecified name types id member := by
  have identical : ∀ member, scope.Specifies name types member types ↔
      ∃ candidate, scope.candidate? ⟨name, types, .exact⟩ member = some candidate ∧
        isExact types candidate = true ∧ candidate.realParams = types := by
    intro member
    rw [← exists_candidate?_exact_iff]
    refine exists_congr fun candidate => and_congr_right fun accepted => ?_
    simp [isExact_of_candidate? accepted]
  have equivalent : ∀ member, (∃ real, scope.Specifies name types member real) ↔
      ∃ candidate, scope.candidate? ⟨name, types, .exact⟩ member = some candidate ∧
        isExact types candidate = true := by
    intro member
    constructor
    · rintro ⟨real, specifies⟩
      obtain ⟨candidate, accepted, -⟩ := exists_candidate?_exact_iff.mpr specifies
      exact ⟨candidate, accepted, isExact_of_candidate? accepted⟩
    · rintro ⟨candidate, accepted, -⟩
      exact ⟨_, exists_candidate?_exact_iff.mp ⟨candidate, accepted, rfl⟩⟩
  have absent : (∀ candidate, scope.Accepted ⟨name, types, .exact⟩ id candidate →
        isExact types candidate = true → candidate.realParams ≠ types) ↔
      ∀ other ∈ scope.store.members id, ¬ scope.Specifies name types other types := by
    constructor
    · intro others other declared specifies
      obtain ⟨candidate, accepted, exact, same⟩ := (identical other).mp specifies
      exact others candidate (accepted_of_candidate? declared accepted) exact same
    · intro others candidate accepted exact same
      exact others candidate.member accepted.declared
        (exists_candidate?_exact_iff.mp ⟨candidate, accepted.candidate?_eq, same⟩)
  rw [FirstSpecified, ← exists_firstIn_candidatesIn_iff identical,
    ← exists_firstIn_candidatesIn_iff equivalent, ← absent]
  simp only [Takes]
  constructor
  · rintro ⟨found, first | ⟨others, first⟩, same⟩
    · exact .inl ⟨found, first, same⟩
    · exact .inr ⟨others, found, first, same⟩
  · rintro (⟨found, first, same⟩ | ⟨others, found, first, same⟩)
    · exact ⟨found, .inl first, same⟩
    · exact ⟨found, .inr ⟨others, first⟩, same⟩

/-! ## Resolution in the exact mode -/

/-- Where everything is favoured there is nothing to win against. -/
theorem favours_of_valid (beats : Candidate → Candidate → Bool) (favoured : Candidate → Bool) :
    Favours beats (fun candidate => favoured candidate = true) favoured where
  wins := by
    intro x y _ valid _ ordinary
    simp [valid] at ordinary
  stays := by
    intro x y valid _ ordinary _
    simp [valid] at ordinary

theorem resolve_exact_iff_of_nearest {height : Nat} {found : Candidate}
    (nearest : FirstOf (scope.searched start) (scope.Offers name types) height id) :
    scope.resolve ⟨name, types, .exact⟩ start = some found ↔
      scope.Takes ⟨name, types, .exact⟩ types id found := by
  refine resolve_eq_some_iff_takes (favours_of_valid _ _) (favours_of_valid _ _) ?_
    (nearest.congr fun _ _ _ => declares_exact_iff.symm)
  intro level _ candidate accepted
  exact isExact_of_candidate? accepted.candidate?_eq

theorem exists_nearest_of_resolve {found : Candidate}
    (resolved : scope.resolve ⟨name, types, .exact⟩ start = some found) :
    ∃ height id, FirstOf (scope.searched start) (scope.Offers name types) height id := by
  obtain ⟨level, visited, represents⟩ := resolve_represents resolved
  obtain ⟨height, reached⟩ := mem_chain_iff.mp visited
  have accepted := candidateIn_accepted represents
  exact exists_firstOf reached
    (declares_exact_iff.mp ⟨found, accepted, isExact_of_candidate? accepted.candidate?_eq⟩)

theorem findSpecified_eq_ok_iff_resolve :
    scope.findSpecified start name types = .ok member ↔
      ∃ found, scope.resolve ⟨name, types, .exact⟩ start = some found ∧ found.member = member := by
  rw [findSpecified]
  cases scope.resolve ⟨name, types, .exact⟩ start <;> simp

theorem findSpecified_eq_ok_iff :
    scope.findSpecified start name types = .ok member ↔
      ∃ height id, FirstOf (scope.searched start) (scope.Offers name types) height id ∧
        scope.FirstSpecified name types id member := by
  rw [findSpecified_eq_ok_iff_resolve]
  constructor
  · rintro ⟨found, resolved, same⟩
    obtain ⟨height, id, nearest⟩ := exists_nearest_of_resolve resolved
    have takes := (resolve_exact_iff_of_nearest nearest).mp resolved
    exact ⟨height, id, nearest, exists_takes_exact_iff.mp ⟨found, takes, same⟩⟩
  · rintro ⟨height, id, nearest, first⟩
    obtain ⟨found, takes, same⟩ := exists_takes_exact_iff.mpr first
    exact ⟨found, (resolve_exact_iff_of_nearest nearest).mpr takes, same⟩

theorem exists_firstSpecified (offers : scope.Offers name types id) :
    ∃ member, scope.FirstSpecified name types id member := by
  obtain ⟨found, takes⟩ := (declares_exact_iff.mpr offers).exists_takes
  exact ⟨found.member, exists_takes_exact_iff.mp ⟨found, takes, rfl⟩⟩

/-- A scope with the same context convention, the same classes up to a height, and
the same members on them; above that height anything may differ. -/
structure AgreesUpTo (scope other : Scope) (start : ClassId) (height : Nat) : Prop where
  context : other.context = scope.context
  searched : ∀ lower ≤ height, other.searched start lower = scope.searched start lower
  members : ∀ lower ≤ height, ∀ id, scope.searched start lower = some id →
    other.store.members id = scope.store.members id

theorem Specifies.of_context {other : Scope} (context : other.context = scope.context) :
    other.Specifies name types member real ↔ scope.Specifies name types member real := by
  have matched : other.RealParams types.length member.params real ↔
      scope.RealParams types.length member.params real := by
    rw [← realParams_iff, ← realParams_iff]
    simp only [skipsContext?, context]
  constructor
  · intro specifies
    exact ⟨specifies.named, matched.mp specifies.matched, specifies.equivalent⟩
  · intro specifies
    exact ⟨specifies.named, matched.mpr specifies.matched, specifies.equivalent⟩

theorem AgreesUpTo.offers_iff {other : Scope} {height lower : Nat}
    (agrees : scope.AgreesUpTo other start height) (least : lower ≤ height)
    (reached : scope.searched start lower = some id) :
    other.Offers name types id ↔ scope.Offers name types id := by
  simp only [Offers, agrees.members lower least id reached, Specifies.of_context agrees.context]

theorem AgreesUpTo.nearest {other : Scope} {height : Nat}
    (agrees : scope.AgreesUpTo other start height)
    (nearest : FirstOf (scope.searched start) (scope.Offers name types) height id) :
    FirstOf (other.searched start) (other.Offers name types) height id := by
  have top := Nat.le_refl height
  refine ⟨?_, (agrees.offers_iff top nearest.reached).mpr nearest.holds, ?_⟩
  · rw [agrees.searched height top, nearest.reached]
  · intro lower less passed reached offers
    have below := Nat.le_of_lt less
    rw [agrees.searched lower below] at reached
    exact nearest.first lower less passed reached ((agrees.offers_iff below reached).mp offers)

theorem AgreesUpTo.findSpecified_eq_ok_iff {other : Scope} {height : Nat}
    (agrees : scope.AgreesUpTo other start height)
    (nearest : FirstOf (scope.searched start) (scope.Offers name types) height id) :
    other.findSpecified start name types = .ok member ↔
      scope.findSpecified start name types = .ok member := by
  have first : other.FirstSpecified name types id member ↔
      scope.FirstSpecified name types id member := by
    simp only [FirstSpecified, agrees.members height (Nat.le_refl height) id nearest.reached,
      Specifies.of_context agrees.context]
  rw [Scope.findSpecified_eq_ok_iff, Scope.findSpecified_eq_ok_iff]
  constructor
  · rintro ⟨_, _, again, found⟩
    obtain ⟨-, rfl⟩ := (agrees.nearest nearest).unique again
    exact ⟨height, id, nearest, first.mp found⟩
  · rintro ⟨_, _, again, found⟩
    obtain ⟨-, rfl⟩ := nearest.unique again
    exact ⟨height, id, agrees.nearest nearest, first.mpr found⟩

/-- A member is found by its parameter types exactly if a searched class declares
one with equivalent types.  The nearest such class decides, by its first member
with the very types or else by its first one, and no class beyond it matters. -/
theorem findSpecified_nearest (scope : Scope) (start : ClassId) (name : String)
    (types : List Ty) :
    ((∃ member, scope.findSpecified start name types = .ok member) ↔
        ∃ id, scope.Searches start id ∧ scope.Offers name types id) ∧
      (∀ member, scope.findSpecified start name types = .ok member ↔
        ∃ height id, FirstOf (scope.searched start) (scope.Offers name types) height id ∧
          scope.FirstSpecified name types id member) ∧
      (∀ fault, scope.findSpecified start name types = .error fault →
        fault = .specifiedNotFound name (scope.describe types)) ∧
      ∀ height id, FirstOf (scope.searched start) (scope.Offers name types) height id →
        ∀ other, scope.AgreesUpTo other start height →
          ∀ member, other.findSpecified start name types = .ok member ↔
            scope.findSpecified start name types = .ok member := by
  refine ⟨?_, fun _ => findSpecified_eq_ok_iff, ?_, ?_⟩
  · constructor
    · rintro ⟨member, found⟩
      obtain ⟨height, id, nearest, -⟩ := findSpecified_eq_ok_iff.mp found
      exact ⟨id, ⟨height, nearest.reached⟩, nearest.holds⟩
    · rintro ⟨id, ⟨height, reached⟩, offers⟩
      obtain ⟨lowest, near, nearest⟩ := exists_firstOf reached offers
      obtain ⟨member, first⟩ := exists_firstSpecified nearest.holds
      exact ⟨member, findSpecified_eq_ok_iff.mpr ⟨lowest, near, nearest, first⟩⟩
  · intro fault failed
    rw [findSpecified] at failed
    split at failed
    · cases failed
    · exact (Except.error.inj failed).symm
  · intro height id nearest other agrees member
    exact agrees.findSpecified_eq_ok_iff nearest

end MemberDispatch.Scope
