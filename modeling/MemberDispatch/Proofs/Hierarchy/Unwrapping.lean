import MemberDispatch.Invoke.Arguments
import MemberDispatch.Proofs.Hierarchy.DeclaredType
import MemberDispatch.Proofs.Store.Changes

/-!
# Unwrapping generated classes

A generated class may stand in for another generated class, and so on.  On every
store without cycles this ends, at a class that stands in for no other.  The walk
that looks for it is cut after a fixed number of steps: a class that is wrapped
less often has the innermost class as its declared type, and one that is wrapped
at least so often counts as its own declared type, as if it were cyclic.
-/

set_option autoImplicit false

namespace MemberDispatch.Store

open Relation

variable {store : Store} {id next start last : ClassId} {steps bound : Nat}

/-- What a generated class stands in for: its superclass, or its first interface
where it has no superclass but the root. -/
inductive StandsInFor (store : Store) (id next : ClassId) : Prop where
  | superclass {info : ClassInfo} (defined : store.class? id = some info)
      (synthetic : info.synthetic = true) (above : info.superclass = some next)
      (proper : next ≠ .object)
  | interface {info : ClassInfo} (defined : store.class? id = some info)
      (synthetic : info.synthetic = true)
      (rooted : ∀ above, info.superclass = some above → above = .object)
      (first : info.interfaces.head? = some next)

/-- A class that stands in for no other. -/
inductive Settled (store : Store) (id : ClassId) : Prop where
  | undefined (none : store.class? id = none)
  | genuine {info : ClassInfo} (defined : store.class? id = some info)
      (genuine : info.synthetic = false)
  | bare {info : ClassInfo} (defined : store.class? id = some info)
      (synthetic : info.synthetic = true)
      (rooted : ∀ above, info.superclass = some above → above = .object)
      (none : info.interfaces = [])

/-- After so many steps the unwrap walk from a class is at a settled one. -/
inductive UnwrapsTo (store : Store) : ClassId → Nat → ClassId → Prop where
  | settled {id : ClassId} (settled : store.Settled id) : UnwrapsTo store id 0 id
  | step {id next last : ClassId} {steps : Nat} (stands : store.StandsInFor id next)
      (rest : UnwrapsTo store next steps last) : UnwrapsTo store id (steps + 1) last

/-! ## One step -/

theorem unwrapStep?_eq_some_iff :
    store.unwrapStep? id = some next ↔ store.StandsInFor id next := by
  constructor
  · intro step
    unfold unwrapStep? at step
    split at step
    · cases step
    · rename_i info defined
      split at step
      · rename_i synthetic
        split at step
        · rename_i superclass superclassEq
          split at step
          · rename_i atRoot
            refine .interface defined synthetic ?_ step
            intro above aboveEq
            cases superclassEq.symm.trans aboveEq
            exact atRoot
          · rename_i proper
            cases step
            exact .superclass defined synthetic superclassEq proper
        · rename_i none
          exact .interface defined synthetic (by simp [none]) step
      · cases step
  · intro stands
    cases stands with
    | superclass defined synthetic above proper =>
        simp [unwrapStep?, defined, synthetic, above, proper]
    | @interface info defined synthetic rooted first =>
        cases superclassEq : info.superclass with
        | none => simp [unwrapStep?, defined, synthetic, superclassEq, first]
        | some above =>
            obtain rfl := rooted above superclassEq
            simp [unwrapStep?, defined, synthetic, superclassEq, first]

theorem unwrapStep?_eq_none_iff : store.unwrapStep? id = none ↔ store.Settled id := by
  constructor
  · intro stops
    have nothing : ∀ next, ¬ store.StandsInFor id next := by
      intro next stands
      cases stops.symm.trans (unwrapStep?_eq_some_iff.mpr stands)
    cases defined : store.class? id with
    | none => exact .undefined defined
    | some info =>
        cases synthetic : info.synthetic with
        | false => exact .genuine defined synthetic
        | true =>
            have rooted : ∀ above, info.superclass = some above → above = .object := by
              intro above aboveEq
              refine Decidable.byContradiction fun proper => ?_
              exact nothing above (.superclass defined synthetic aboveEq proper)
            cases interfacesEq : info.interfaces with
            | nil => exact .bare defined synthetic rooted interfacesEq
            | cons first rest =>
                exact absurd (.interface defined synthetic rooted (by rw [interfacesEq]; rfl))
                  (nothing first)
  · intro settled
    cases settled with
    | undefined none => simp [unwrapStep?, none]
    | genuine defined genuine => simp [unwrapStep?, defined, genuine]
    | @bare info defined synthetic rooted none =>
        cases superclassEq : info.superclass with
        | none => simp [unwrapStep?, defined, synthetic, superclassEq, none]
        | some above =>
            obtain rfl := rooted above superclassEq
            simp [unwrapStep?, defined, synthetic, superclassEq, none]

/-! ## The walk -/

/-- The bound of the walk has to exceed the number of steps. -/
theorem UnwrapsTo.unwrapWithin_eq (unwraps : store.UnwrapsTo id steps last) :
    store.unwrapWithin start bound id = if steps < bound then last else start := by
  induction unwraps generalizing bound with
  | settled settled =>
      cases bound with
      | zero => rfl
      | succ bound =>
          rw [unwrapWithin, unwrapStep?_eq_none_iff.mpr settled, if_pos (Nat.succ_pos bound)]
  | step stands rest ih =>
      cases bound with
      | zero => rfl
      | succ bound =>
          rw [unwrapWithin, unwrapStep?_eq_some_iff.mpr stands]
          simp only [ih, Nat.add_lt_add_iff_right]

theorem unwrapWithin_of_endless (endless : ∀ steps last, ¬ store.UnwrapsTo id steps last) :
    store.unwrapWithin start bound id = start := by
  induction bound generalizing id with
  | zero => rfl
  | succ bound ih =>
      rw [unwrapWithin]
      cases stepEq : store.unwrapStep? id with
      | none => exact absurd (.settled (unwrapStep?_eq_none_iff.mp stepEq)) (endless 0 id)
      | some next =>
          apply ih
          intro steps last rest
          exact endless (steps + 1) last (.step (unwrapStep?_eq_some_iff.mp stepEq) rest)

theorem settled_or_standsInFor (store : Store) (id : ClassId) :
    store.Settled id ∨ ∃ next, store.StandsInFor id next := by
  cases stepEq : store.unwrapStep? id with
  | none => exact .inl (unwrapStep?_eq_none_iff.mp stepEq)
  | some next => exact .inr ⟨next, unwrapStep?_eq_some_iff.mp stepEq⟩

theorem mem_ids_of_standsInFor (stands : store.StandsInFor id next) : id ∈ store.ids :=
  mem_ids_of_directSupertype (directSupertype_of_unwrapStep? (unwrapStep?_eq_some_iff.mpr stands))

/-- A walk that never comes back to a class leaves each class of a pool once. -/
theorem exists_unwrapsTo_of_pool {size : Nat} {pool : List ClassId} (few : pool.length ≤ size)
    (stays : ∀ id next, ReflTransGen store.StandsInFor start id → store.StandsInFor id next →
      id ∈ pool)
    (acyclic : ∀ id, ReflTransGen store.StandsInFor start id →
      ¬ TransGen store.StandsInFor id id) :
    ∃ steps last, store.UnwrapsTo start steps last := by
  induction size generalizing start pool with
  | zero =>
      rcases settled_or_standsInFor store start with settled | ⟨next, stands⟩
      · exact ⟨0, start, .settled settled⟩
      · have inPool := stays start next .refl stands
        rw [List.length_eq_zero_iff.mp (Nat.le_zero.mp few)] at inPool
        cases inPool
  | succ size ih =>
      rcases settled_or_standsInFor store start with settled | ⟨next, stands⟩
      · exact ⟨0, start, .settled settled⟩
      · -- What the walk visits after its start does not include the start.
        have inPool := stays start next .refl stands
        have fewer : (pool.filter fun id => id ≠ start).length < pool.length :=
          List.length_filter_lt_length_iff_exists.mpr ⟨start, inPool, by simp⟩
        have rest : ∃ steps last, store.UnwrapsTo next steps last := by
          apply ih (Nat.le_of_lt_succ (Nat.lt_of_lt_of_le fewer few))
          · intro id above path leaves
            refine List.mem_filter.mpr ⟨stays id above (.head stands path) leaves, ?_⟩
            simp only [ne_eq, decide_not, Bool.not_eq_true', decide_eq_false_iff_not]
            rintro rfl
            exact acyclic id .refl (.head' stands path)
          · intro id path
            exact acyclic id (.head stands path)
        obtain ⟨steps, last, rest⟩ := rest
        exact ⟨steps + 1, last, .step stands rest⟩

theorem exists_unwrapsTo (acyclic : ∀ id, ReflTransGen store.StandsInFor start id →
      ¬ TransGen store.StandsInFor id id) :
    ∃ steps last, store.UnwrapsTo start steps last :=
  exists_unwrapsTo_of_pool (Nat.le_refl store.ids.length)
    (fun _ _ _ stands => mem_ids_of_standsInFor stands) acyclic

/-! ## Declared types -/

theorem UnwrapsTo.declaredType_eq (unwraps : store.UnwrapsTo start steps last) :
    store.declaredType start = if steps < unwrapBound then last else start :=
  unwraps.unwrapWithin_eq

theorem UnwrapsTo.settled_last (unwraps : store.UnwrapsTo start steps last) :
    store.Settled last := by
  induction unwraps with
  | settled settled => exact settled
  | step _ _ ih => exact ih

theorem declaredType_of_settled (settled : store.Settled id) : store.declaredType id = id := by
  rw [(UnwrapsTo.settled settled).declaredType_eq, ite_self]

/-- A walk that does not end within the bound is given up, cyclic or not. -/
theorem declaredType_of_far
    (far : ∀ steps last, store.UnwrapsTo id steps last → unwrapBound ≤ steps) :
    store.declaredType id = id := by
  by_cases ends : ∃ steps last, store.UnwrapsTo id steps last
  · obtain ⟨steps, last, unwraps⟩ := ends
    rw [unwraps.declaredType_eq, if_neg (Nat.not_lt.mpr (far steps last unwraps))]
  · exact unwrapWithin_of_endless fun steps last unwraps => ends ⟨steps, last, unwraps⟩

theorem settled_declaredType_or_far (store : Store) (id : ClassId) :
    store.Settled (store.declaredType id) ∨
      ∀ steps last, store.UnwrapsTo id steps last → unwrapBound ≤ steps := by
  by_cases near : ∃ steps last, store.UnwrapsTo id steps last ∧ steps < unwrapBound
  · obtain ⟨steps, last, unwraps, within⟩ := near
    left
    rw [unwraps.declaredType_eq, if_pos within]
    exact unwraps.settled_last
  · right
    intro steps last unwraps
    exact Nat.not_lt.mp fun within => near ⟨steps, last, unwraps, within⟩

/-- To unwrap twice is to unwrap once: the declared type stands in for no other
class, or is the class itself. -/
theorem declaredType_declaredType (store : Store) (id : ClassId) :
    store.declaredType (store.declaredType id) = store.declaredType id := by
  rcases settled_declaredType_or_far store id with settled | far
  · exact declaredType_of_settled settled
  · exact congrArg store.declaredType (declaredType_of_far far)

theorem typeArgument?_of_classId? {value : Value} (runtime : value.classId? = some start)
    (instanceOf : ∀ type, value ≠ .typeToken type) :
    store.typeArgument? value = some (.ofClass (store.declaredType start), value) := by
  cases value with
  | typeToken type => exact absurd rfl (instanceOf type)
  | _ =>
      simp only [typeArgument?, runtime]
      rfl

/-- A class that is wrapped less often than the bound has the innermost class as its
declared type; wrapped more often, or for ever, it counts as its own.  Only cycles
are for ever.  What a value contributes to matching is the declared type. -/
theorem declaredType_unwraps (store : Store) (start : ClassId) :
    (∀ steps last, store.UnwrapsTo start steps last →
        store.declaredType start = if steps < unwrapBound then last else start) ∧
      ((∀ steps last, ¬ store.UnwrapsTo start steps last) → store.declaredType start = start) ∧
      ((∀ id, ReflTransGen store.StandsInFor start id → ¬ TransGen store.StandsInFor id id) →
        ∃ steps last, store.UnwrapsTo start steps last) ∧
      ∀ value, value.classId? = some start → (∀ type, value ≠ .typeToken type) →
        ∀ steps last, store.UnwrapsTo start steps last →
          store.typeArgument? value =
            some (.ofClass (if steps < unwrapBound then last else start), value) := by
  refine ⟨fun _ _ => UnwrapsTo.declaredType_eq, unwrapWithin_of_endless, exists_unwrapsTo, ?_⟩
  intro value runtime instanceOf steps last unwraps
  rw [typeArgument?_of_classId? runtime instanceOf, unwraps.declaredType_eq]

end MemberDispatch.Store

/-! ## Dolls

Each doll is generated for the one inside it, and the innermost is genuine. -/

namespace MemberDispatch.Dolls

open Relation Store

def doll (layers : Nat) : ClassId := ⟨26 + layers⟩

def dollClass : Nat → ClassDef
  | 0 => platformClass (strokes 0) (some .object) []
  | layers + 1 =>
    { platformClass (strokes (layers + 1)) (some (doll layers)) [] with synthetic := true }

def store (dolls : Nat) : Store := platform.addRow dollClass dolls

theorem newRow_dollClass : platform.NewRow dollClass :=
  newRow_of_strokes fun layers => by cases layers <;> rfl

theorem store_reachable (dolls : Nat) : (store dolls).Reachable :=
  Reachable.platform.addRow dollClass dolls

theorem store_acyclic (dolls : Nat) : (store dolls).Acyclic := by
  refine newRow_dollClass.acyclic_addRow descending_platform ?_ dolls
  intro layers sup above
  rw [size_platform]
  cases layers with
  | zero =>
      obtain rfl : sup = .object := by simpa [dollClass, platformClass] using above
      decide
  | succ layers =>
      obtain rfl : sup = doll layers := by simpa [dollClass, platformClass] using above
      exact Nat.lt_succ_self (26 + layers)

theorem class?_doll {dolls layers : Nat} (made : layers < dolls) :
    (store dolls).class? (doll layers) =
      some (record (doll layers) (dollClass layers) (store layers).nextSerial) := by
  have placed := newRow_dollClass.class?_addRow made
  rwa [size_platform] at placed

theorem unwrapsTo_innermost {dolls layers : Nat} (made : layers < dolls) :
    (store dolls).UnwrapsTo (doll layers) layers (doll 0) := by
  induction layers with
  | zero => exact .settled (.genuine (class?_doll made) rfl)
  | succ layers ih =>
      refine .step (.superclass (class?_doll made) rfl rfl ?_) (ih (by omega))
      simp [doll, ClassId.object]

/-- As many layers as the walk can take off are taken off. -/
theorem declaredType_of_thin_doll :
    (store 64).UnwrapsTo (doll 63) 63 (doll 0) ∧ (store 64).declaredType (doll 63) = doll 0 ∧
      (store 64).typeArgument? (.object ⟨0, doll 63, none⟩) =
        some (.ofClass (doll 0), .object ⟨0, doll 63, none⟩) := by
  have unwraps : (store 64).UnwrapsTo (doll 63) 63 (doll 0) := unwrapsTo_innermost (by decide)
  obtain ⟨within, -, -, contributes⟩ := declaredType_unwraps (store 64) (doll 63)
  have declared := within 63 (doll 0) unwraps
  have typed := contributes (.object ⟨0, doll 63, none⟩) rfl (by simp) 63 (doll 0) unwraps
  rw [if_pos (by decide)] at declared typed
  exact ⟨unwraps, declared, typed⟩

/-- One layer more, and the doll counts as its own declared type. -/
theorem declaredType_of_thick_doll :
    (store 65).Reachable ∧ (store 65).Acyclic ∧ (store 65).UnwrapsTo (doll 64) 64 (doll 0) ∧
      (store 65).declaredType (doll 64) = doll 64 ∧ doll 64 ≠ doll 0 := by
  have unwraps : (store 65).UnwrapsTo (doll 64) 64 (doll 0) := unwrapsTo_innermost (by decide)
  have declared := unwraps.declaredType_eq
  rw [if_neg (by decide)] at declared
  exact ⟨store_reachable 65, store_acyclic 65, unwraps, declared, by decide⟩

end MemberDispatch.Dolls
