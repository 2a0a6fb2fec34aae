import MemberDispatch.Value.Widening

/-!
# Kinds of widened values

A widened value is of the kind that was asked for, and only primitive values
widen.
-/

set_option autoImplicit false

namespace MemberDispatch.Value

theorem primitive?_of_ofIntegral {integer : Int64} {target : Primitive} {result : Value}
    (converted : ofIntegral integer target = some result) :
    result.primitive? = some target := by
  cases target <;> simp [ofIntegral] at converted <;> subst converted <;> rfl

theorem double_of_widens_float {target : Primitive} (differs : Primitive.float ≠ target)
    (widens : Primitive.float.widensTo target = true) : target = .double := by
  cases target <;> simp_all [Primitive.widensTo, Primitive.widerThan]

theorem primitive?_of_widenTo {value result : Value} {target : Primitive}
    (widened : value.widenTo target = some result) : result.primitive? = some target := by
  unfold widenTo at widened
  cases kind : value.primitive? with
  | none => simp [kind] at widened
  | some source =>
      simp only [kind] at widened
      by_cases same : source = target
      · rw [if_pos same, Option.some.injEq] at widened
        rw [← widened, kind, same]
      · rw [if_neg same] at widened
        by_cases widens : source.widensTo target = true
        · rw [if_pos widens] at widened
          split at widened
          · -- A single-precision value widens to double precision alone.
            cases Option.some.inj kind
            rw [double_of_widens_float same widens]
            cases Option.some.inj widened
            rfl
          · obtain ⟨integer, _, converted⟩ := Option.bind_eq_some_iff.mp widened
            exact primitive?_of_ofIntegral converted
        · rw [if_neg widens] at widened
          simp at widened

theorem widenTo_eq_none_of_no_kind {value : Value} (target : Primitive)
    (other : value.primitive? = none) : value.widenTo target = none := by
  unfold widenTo
  rw [other]

end MemberDispatch.Value
