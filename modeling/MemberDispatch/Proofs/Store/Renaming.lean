import MemberDispatch.Proofs.Store.Coherent

/-!
# Names under renaming

A class that is renamed gives up the name in its record, whether or not it is still
found under it.  If another class has taken that name over, it is this other class
that is found under it no more.  Nothing else unseats a class from a name that it is
found under, except its own renaming and a definition that takes the name over.
-/

set_option autoImplicit false

namespace MemberDispatch.Store

/-- The class has a name under which another class is found. -/
def Displaced (store : Store) (id : ClassId) (name : String) : Prop :=
  ∃ info other, store.class? id = some info ∧ info.name = name ∧
    store.idOf? name = some other ∧ other ≠ id

/-- What ends that a class is found under a name. -/
inductive Unseats (store : Store) (name : String) (id : ClassId) : Change → Prop where
  | renames {definition : ClassDef} (differs : definition.name ≠ name) :
      Unseats store name id (.define id definition)
  | takesOver {other : ClassId} {info : ClassInfo} {definition : ClassDef} (elsewhere : other ≠ id)
      (defined : store.class? other = some info) (takes : definition.name = name) :
      Unseats store name id (.define other definition)
  /-- A class that has lost the name gives it up all the same. -/
  | givesUp {other : ClassId} {definition : ClassDef} (displaced : store.Displaced other name)
      (differs : definition.name ≠ name) :
      Unseats store name id (.define other definition)

variable {store : Store} {name : String} {id : ClassId}

/-! ## One change -/

theorem idOf?_define_of_displaced {other : ClassId} {definition : ClassDef}
    (displaced : store.Displaced other name) (differs : definition.name ≠ name) :
    (store.define other definition).idOf? name = none := by
  obtain ⟨info, _, defined, nameEq, _, _⟩ := displaced
  rw [idOf?_define definition defined, if_neg differs.symm, if_pos nameEq.symm]

theorem idOf?_define_of_not_displaced (found : store.idOf? name = some id) {other : ClassId}
    (elsewhere : other ≠ id) {definition : ClassDef} (differs : definition.name ≠ name)
    (seated : ¬ store.Displaced other name) :
    (store.define other definition).idOf? name = some id := by
  cases known : store.class? other with
  | none => rwa [define_of_undefined definition known]
  | some previous =>
      have keeps : name ≠ previous.name := fun same =>
        seated ⟨previous, id, known, same.symm, found, elsewhere.symm⟩
      rw [idOf?_define definition known, if_neg differs.symm, if_neg keeps, found]

theorem idOf?_define_of_takes {other : ClassId} {info : ClassInfo} {definition : ClassDef}
    (defined : store.class? other = some info) (takes : definition.name = name) :
    (store.define other definition).idOf? name = some other := by
  rw [idOf?_define definition defined, if_pos takes.symm]

/-- Adding a class leaves every name with the class that is found under it: it
defines the one that its own name leads to. -/
theorem Coherent.idOf?_add (coherent : store.Coherent) (found : store.idOf? name = some id)
    (definition : ClassDef) : (store.add definition).2.idOf? name = some id := by
  have seated := idOf?_intern_of_known found definition.name
  obtain ⟨info, placed, nameEq⟩ := coherent.exists_interned definition.name
  rw [add, idOf?_define definition placed]
  split
  · rename_i same
    rw [idOf?_intern, if_pos same] at seated
    exact seated
  · rename_i differs
    rw [if_neg (nameEq ▸ differs), seated]

theorem Coherent.idOf?_apply_iff (coherent : store.Coherent) (found : store.idOf? name = some id)
    (change : Change) :
    (change.apply store).idOf? name = some id ↔ ¬ store.Unseats name id change := by
  cases change with
  | intern other =>
      have seated := idOf?_intern_of_known found other
      exact iff_of_true seated (fun unseats => by cases unseats)
  | add definition =>
      exact iff_of_true (coherent.idOf?_add found definition) (fun unseats => by cases unseats)
  | define other definition =>
      by_cases own : other = id
      · subst own
        obtain ⟨info, defined, nameEq⟩ := coherent.named name other found
        by_cases same : definition.name = name
        · refine iff_of_true (idOf?_define_of_takes defined same) ?_
          rintro (differs | ⟨elsewhere, _, _⟩ | ⟨_, differs⟩)
          · exact differs same
          · exact elsewhere rfl
          · exact differs same
        · refine iff_of_false ?_ (fun seated => seated (.renames same))
          rw [Change.apply, idOf?_define definition defined, if_neg (Ne.symm same),
            if_pos nameEq.symm]
          simp
      · by_cases same : definition.name = name
        · cases known : store.class? other with
          | none =>
              rw [Change.apply, define_of_undefined definition known]
              refine iff_of_true found ?_
              rintro (differs | ⟨_, defined, _⟩ | ⟨_, differs⟩)
              · exact own rfl
              · cases known.symm.trans defined
              · exact differs same
          | some info =>
              refine iff_of_false ?_ (fun seated => seated (.takesOver own known same))
              rw [Change.apply, idOf?_define_of_takes known same]
              exact fun taken => own (Option.some.inj taken)
        · by_cases displaced : store.Displaced other name
          · refine iff_of_false ?_ (fun seated => seated (.givesUp displaced same))
            rw [Change.apply, idOf?_define_of_displaced displaced same]
            simp
          · refine iff_of_true (idOf?_define_of_not_displaced found own same displaced) ?_
            rintro (differs | ⟨_, _, takes⟩ | ⟨lost, _⟩)
            · exact own rfl
            · exact same takes
            · exact displaced lost

/-! ## Runs of changes -/

/-- A class stays found under a name through a run of changes exactly if none of
them unseats it. -/
theorem Coherent.idOf?_applyAll_iff (coherent : store.Coherent)
    (found : store.idOf? name = some id) (changes : List Change) :
    (∀ position, (Change.applyAll (changes.take position) store).idOf? name = some id) ↔
      ∀ position change, changes[position]? = some change →
        ¬ (Change.applyAll (changes.take position) store).Unseats name id change := by
  have next {position : Nat} {change : Change} (present : changes[position]? = some change) :
      Change.applyAll (changes.take (position + 1)) store =
        change.apply (Change.applyAll (changes.take position) store) := by
    rw [List.take_add_one, present, Option.toList_some, Change.applyAll_concat]
  constructor
  · intro stays position change present
    have after := stays (position + 1)
    rw [next present] at after
    exact ((coherent.applyAll (changes.take position)).idOf?_apply_iff (stays position)
      change).mp after
  · intro seated position
    induction position with
    | zero => exact found
    | succ position ih =>
        cases present : changes[position]? with
        | none =>
            rw [List.take_add_one, present, Option.toList_none, List.append_nil]
            exact ih
        | some change =>
            rw [next present]
            exact ((coherent.applyAll (changes.take position)).idOf?_apply_iff ih change).mpr
              (seated position change present)

/-- A definition under another name leaves a class found where it is, unless it is
the definition of a class that has lost that name; then nothing is found there.  Over
a run, a class stays found under a name exactly as long as it is not renamed, the
name is not taken over, and no class that has lost the name is renamed. -/
theorem Reachable.stays_found_iff (reached : store.Reachable)
    (found : store.idOf? name = some id) :
    (∀ other definition, other ≠ id → definition.name ≠ name →
      ((store.define other definition).idOf? name = some id ↔ ¬ store.Displaced other name) ∧
      ((store.define other definition).idOf? name = none ↔ store.Displaced other name)) ∧
    ∀ changes : List Change,
      (∀ position, (Change.applyAll (changes.take position) store).idOf? name = some id) ↔
        ∀ position change, changes[position]? = some change →
          ¬ (Change.applyAll (changes.take position) store).Unseats name id change := by
  refine ⟨?_, reached.coherent.idOf?_applyAll_iff found⟩
  intro other definition elsewhere differs
  by_cases displaced : store.Displaced other name
  · rw [idOf?_define_of_displaced displaced differs]
    simp [displaced]
  · rw [idOf?_define_of_not_displaced found elsewhere differs displaced]
    simp [displaced]

end Store

/-! ## In the harbour -/

namespace Harbour

open Store

theorem barge_displaced : store.Displaced barge "Barge" := by
  have computed : (store.class? barge).map ClassInfo.name = some "Barge" ∧
      store.idOf? "Barge" = some ferry := by
    decide +kernel
  obtain ⟨info, defined, nameEq⟩ := Option.map_eq_some_iff.mp computed.1
  exact ⟨info, ferry, defined, nameEq, computed.2, by decide⟩

/-- The ferry is found under its new name until the barge is renamed: another
vessel and a refit leave it there. -/
theorem ferry_found :
    store.Reachable ∧ store.idOf? "Barge" = some ferry ∧
      (∀ position, (Change.applyAll
        ([.add (vessel "Skiff"), .define ferry (vessel "Barge")].take position) store).idOf?
          "Barge" = some ferry) ∧
      (rename.apply store).idOf? "Barge" = none := by
  have found : store.idOf? "Barge" = some ferry := by decide +kernel
  obtain ⟨once, throughout⟩ := Reachable.stays_found_iff store_reachable found
  refine ⟨store_reachable, found, (throughout _).mpr ?_, ?_⟩
  · intro position change present unseats
    have listed := List.mem_of_getElem? present
    simp only [List.mem_cons, List.not_mem_nil, or_false] at listed
    rcases listed with rfl | rfl
    · cases unseats
    · cases unseats with
      | renames differs => exact differs rfl
      | takesOver elsewhere _ _ => exact elsewhere rfl
      | givesUp _ differs => exact differs rfl
  · exact (once barge (vessel "Hulk") (by decide) (by decide)).2.mpr barge_displaced

/-- Renaming the barge unregisters the ferry, which has the name it was found under
to this day. -/
theorem rename_unregisters_ferry :
    store.Reachable ∧ store.idOf? "Barge" = some ferry ∧ barge ≠ ferry ∧
      (vessel "Hulk").name ≠ "Barge" ∧
      (store.define barge (vessel "Hulk")).idOf? "Barge" = none ∧
      ((store.define barge (vessel "Hulk")).class? ferry).map ClassInfo.name = some "Barge" := by
  refine ⟨store_reachable, ?_⟩
  decide +kernel

end Harbour

end MemberDispatch
