/-!
# Steps that may fail

A sequence of steps succeeds only if each of them does.
-/

set_option autoImplicit false

namespace MemberDispatch

variable {ε α β : Type}

theorem exists_of_bind_eq_ok {first : Except ε α} {next : α → Except ε β} {result : β}
    (done : first.bind next = .ok result) :
    ∃ value, first = .ok value ∧ next value = .ok result := by
  cases first with
  | error fault => cases done
  | ok value => exact ⟨value, rfl, done⟩

theorem map_eq_ok_iff {first : Except ε α} {last : α → β} {result : β} :
    first.map last = .ok result ↔ ∃ value, first = .ok value ∧ last value = result := by
  cases first <;> simp [Except.map]

theorem exists_of_map_eq_ok {first : Except ε α} {last : α → β} {result : β}
    (done : first.map last = .ok result) : ∃ value, first = .ok value ∧ last value = result :=
  map_eq_ok_iff.mp done

theorem exists_bind_eq_ok_iff {first : Except ε α} {next : α → Except ε β} :
    (∃ result, first.bind next = .ok result) ↔
      ∃ value, first = .ok value ∧ ∃ result, next value = .ok result := by
  constructor
  · rintro ⟨result, done⟩
    obtain ⟨value, done, last⟩ := exists_of_bind_eq_ok done
    exact ⟨value, done, result, last⟩
  · rintro ⟨value, rfl, result, done⟩
    exact ⟨result, done⟩

theorem exists_map_eq_ok_iff {first : Except ε α} {last : α → β} :
    (∃ result, first.map last = .ok result) ↔ ∃ value, first = .ok value := by
  cases first with
  | error fault => simp [Except.map]
  | ok value => simp [Except.map]

theorem map_eq_error_iff {first : Except ε α} {last : α → β} {fault : ε} :
    first.map last = .error fault ↔ first = .error fault := by
  cases first <;> simp [Except.map]

end MemberDispatch
