import Mathlib.Algebra.Group.Int.Defs
import MemberDispatch.Proofs.Value.Widening

/-!
# Integers that widened values denote

The integral kinds hold ranges of integers, and a kind widens to an integral
kind only if that one holds the whole range.  A conversion passes through a
64-bit integer and back through a cast that cuts off what does not fit; within
the ranges nothing is cut off.  So a widened value denotes the integer it came
from, and a conversion in two steps is the conversion in one.
-/

set_option autoImplicit false

namespace MemberDispatch

namespace Primitive

def isIntegral : Primitive → Bool
  | byte | short | char | int | long => true
  | boolean | float | double => false

/-- The integers that a kind has values for; a character stands for its code
point. -/
def Holds : Primitive → Int → Prop
  | byte, number => -2 ^ 7 ≤ number ∧ number < 2 ^ 7
  | short, number => -2 ^ 15 ≤ number ∧ number < 2 ^ 15
  | char, number => 0 ≤ number ∧ number < 0x110000
  | int, number => -2 ^ 31 ≤ number ∧ number < 2 ^ 31
  | long, number => -2 ^ 63 ≤ number ∧ number < 2 ^ 63
  | boolean, _ | float, _ | double, _ => False

variable {source target further : Primitive} {number : Int}

/-- Widening to an integral kind never leaves its range. -/
theorem Holds.widen (holds : source.Holds number) (widens : source.widensTo target = true)
    (integral : target.isIntegral = true) : target.Holds number := by
  cases source <;> cases target <;>
    simp_all [widensTo, widerThan, isIntegral, Holds] <;> omega

theorem widensTo_trans (first : source.widensTo target = true)
    (second : target.widensTo further = true) : source.widensTo further = true := by
  have everywhere : ∀ source ∈ all, ∀ target ∈ all, ∀ further ∈ all,
      source.widensTo target = true → target.widensTo further = true →
        source.widensTo further = true := by
    decide
  exact everywhere source source.mem_all target target.mem_all further further.mem_all first second

theorem widensTo_antisymm (forth : source.widensTo target = true)
    (back : target.widensTo source = true) : source = target := by
  have everywhere : ∀ source ∈ all, ∀ target ∈ all,
      source.widensTo target = true → target.widensTo source = true → source = target := by
    decide
  exact everywhere source source.mem_all target target.mem_all forth back

end Primitive

namespace Value

variable {value widened : Value} {kind source target further : Primitive} {number : Int}

/-- The integer that an integral value denotes. -/
def denotes? : Value → Option Int
  | byte value => some value.toInt
  | short value => some value.toInt
  | char value => some value.toNat
  | int value => some value.toInt
  | long value => some value.toInt
  | _ => none

theorem exists_denotes? (primitive : value.primitive? = some kind)
    (integral : kind.isIntegral = true) : ∃ number, value.denotes? = some number := by
  cases value with
  | byte value => exact ⟨value.toInt, rfl⟩
  | short value => exact ⟨value.toInt, rfl⟩
  | char value => exact ⟨value.toNat, rfl⟩
  | int value => exact ⟨value.toInt, rfl⟩
  | long value => exact ⟨value.toInt, rfl⟩
  | boolean | float | double =>
      cases primitive
      cases integral
  | null | void | text | object | typeToken => cases primitive

theorem char_toNat_lt (c : Char) : c.toNat < 0x110000 := by
  rcases c.valid with low | ⟨_, high⟩
  · exact Nat.lt_trans low (by decide)
  · exact high

theorem holds_of_denotes? (primitive : value.primitive? = some kind)
    (denoted : value.denotes? = some number) : kind.Holds number := by
  cases value with
  | byte value =>
      cases primitive
      cases denoted
      exact ⟨value.le_toInt, value.toInt_lt⟩
  | short value =>
      cases primitive
      cases denoted
      exact ⟨value.le_toInt, value.toInt_lt⟩
  | char value =>
      cases primitive
      cases denoted
      have bound := char_toNat_lt value
      exact ⟨by omega, by omega⟩
  | int value =>
      cases primitive
      cases denoted
      exact ⟨value.le_toInt, value.toInt_lt⟩
  | long value =>
      cases primitive
      cases denoted
      exact ⟨value.le_toInt, value.toInt_lt⟩
  | null | void | boolean | float | double | text | object | typeToken => cases denoted

/-! ## Through the 64-bit integer -/

/-- The 64-bit integer is the one denoted: no range is wider than its own. -/
theorem denotes?_eq_map_integral? (value : Value) :
    value.denotes? = value.integral?.map Int64.toInt := by
  cases value with
  | byte value => simp [denotes?, integral?]
  | short value => simp [denotes?, integral?]
  | char value =>
      have bound := char_toNat_lt value
      rw [denotes?, integral?, Option.map_some, Int64.toInt_ofNat_of_lt (by omega)]
  | int value => simp [denotes?, integral?]
  | long value => rfl
  | null | void | boolean | float | double | text | object | typeToken => rfl

/-- A cast to a kind that holds the integer cuts nothing off. -/
theorem denotes?_ofIntegral {integer : Int64} (holds : target.Holds integer.toInt)
    (converted : ofIntegral integer target = some widened) :
    widened.denotes? = some integer.toInt := by
  cases target with
  | short =>
      cases converted
      obtain ⟨least, most⟩ := holds
      rw [denotes?, Int64.toInt_toInt16, Int.bmod_eq_of_le (by omega) (by omega)]
  | int =>
      cases converted
      obtain ⟨least, most⟩ := holds
      rw [denotes?, Int64.toInt_toInt32, Int.bmod_eq_of_le (by omega) (by omega)]
  | long =>
      cases converted
      rfl
  | float | double => cases holds
  | boolean | byte | char => cases converted

/-- Proper widening of anything but a single-precision number converts the
64-bit integer. -/
theorem widenTo_of_integral? {integer : Int64} (primitive : value.primitive? = some source)
    (denoted : value.integral? = some integer) (widens : source.widensTo target = true)
    (differs : source ≠ target) : value.widenTo target = ofIntegral integer target := by
  cases value with
  | byte | short | char | int | long =>
      cases primitive
      simp [widenTo, primitive?, differs, widens, denoted]
  | null | void | boolean | float | double | text | object | typeToken => cases denoted

theorem exists_ofIntegral (integer : Int64) (widens : source.widensTo target = true)
    (differs : source ≠ target) : ∃ widened, ofIntegral integer target = some widened := by
  cases target with
  | short => exact ⟨short integer.toInt16, rfl⟩
  | int => exact ⟨int integer.toInt32, rfl⟩
  | long => exact ⟨long integer, rfl⟩
  | float => exact ⟨float integer.toFloat32, rfl⟩
  | double => exact ⟨double integer.toFloat, rfl⟩
  | boolean | byte | char =>
      -- Nothing widens to these but they themselves.
      cases source <;> simp_all [Primitive.widensTo, Primitive.widerThan]

/-! ## Widening -/

theorem isIntegral_of_widens (widens : source.widensTo target = true)
    (integral : target.isIntegral = true) : source.isIntegral = true := by
  cases source <;> cases target <;>
    simp_all [Primitive.widensTo, Primitive.widerThan, Primitive.isIntegral]

theorem exists_widenTo_iff :
    (∃ widened, value.widenTo target = some widened) ↔
      ∃ kind, value.primitive? = some kind ∧ kind.widensTo target = true := by
  constructor
  · rintro ⟨widened, converted⟩
    cases primitive : value.primitive? with
    | none =>
        rw [widenTo_eq_none_of_no_kind target primitive] at converted
        cases converted
    | some kind =>
        refine ⟨kind, rfl, ?_⟩
        by_cases same : kind = target
        · exact same ▸ kind.widensTo_refl
        · cases widens : kind.widensTo target with
          | true => rfl
          | false => simp [widenTo, primitive, same, widens] at converted
  · rintro ⟨kind, primitive, widens⟩
    by_cases same : kind = target
    · exact ⟨value, widenTo_self (same ▸ primitive)⟩
    · cases denoted : value.integral? with
      | some integer =>
          rw [widenTo_of_integral? primitive denoted widens same]
          exact exists_ofIntegral integer widens same
      | none =>
          -- What denotes no integer and still widens is a single-precision number.
          cases value with
          | float single =>
              cases primitive
              exact ⟨double single.toFloat, by simp [widenTo, primitive?, same, widens]⟩
          | boolean | double =>
              cases primitive
              cases target <;> simp_all [Primitive.widensTo, Primitive.widerThan]
          | byte | short | char | int | long => cases denoted
          | null | void | text | object | typeToken => cases primitive

theorem denotes?_of_widenTo (primitive : value.primitive? = some kind)
    (denoted : value.denotes? = some number) (integral : target.isIntegral = true)
    (converted : value.widenTo target = some widened) : widened.denotes? = some number := by
  obtain ⟨_, ⟨⟩, widens⟩ : ∃ other, some kind = some other ∧ other.widensTo target = true :=
    primitive ▸ exists_widenTo_iff.mp ⟨widened, converted⟩
  by_cases same : kind = target
  · rw [widenTo_self (same ▸ primitive)] at converted
    cases converted
    exact denoted
  · have held := (holds_of_denotes? primitive denoted).widen widens integral
    rw [denotes?_eq_map_integral?] at denoted
    obtain ⟨integer, through, rfl⟩ := Option.map_eq_some_iff.mp denoted
    rw [widenTo_of_integral? primitive through widens same] at converted
    exact denotes?_ofIntegral held converted

theorem integral?_of_widenTo {integer : Int64} (primitive : value.primitive? = some kind)
    (denoted : value.integral? = some integer) (integral : target.isIntegral = true)
    (converted : value.widenTo target = some widened) : widened.integral? = some integer := by
  have before : value.denotes? = some integer.toInt := by
    rw [denotes?_eq_map_integral?, denoted, Option.map_some]
  have after := denotes?_of_widenTo primitive before integral converted
  rw [denotes?_eq_map_integral?] at after
  obtain ⟨other, through, same⟩ := Option.map_eq_some_iff.mp after
  rw [through, Int64.toInt_inj.mp same]

/-- Two steps through an integral kind are one step. -/
theorem widenTo_widenTo (integral : target.isIntegral = true)
    (converted : value.widenTo target = some widened) (widens : target.widensTo further = true) :
    widened.widenTo further = value.widenTo further := by
  obtain ⟨kind, primitive, first⟩ := exists_widenTo_iff.mp ⟨widened, converted⟩
  have reached := primitive?_of_widenTo converted
  by_cases same : kind = target
  · rw [widenTo_self (same ▸ primitive), Option.some.injEq] at converted
    rw [converted]
  · by_cases arrived : target = further
    · rw [← arrived, widenTo_self reached, converted]
    · have strays : kind ≠ further := by
        rintro rfl
        exact same (Primitive.widensTo_antisymm first widens)
      obtain ⟨number, denoted⟩ :=
        exists_denotes? primitive (isIntegral_of_widens first integral)
      rw [denotes?_eq_map_integral?] at denoted
      obtain ⟨integer, through, -⟩ := Option.map_eq_some_iff.mp denoted
      have kept := integral?_of_widenTo primitive through integral converted
      rw [widenTo_of_integral? reached kept widens arrived,
        widenTo_of_integral? primitive through (Primitive.widensTo_trans first widens) strays]

/-- A value widens exactly to the kinds that its own kind widens to, and becomes
a value of the kind; between integral kinds it denotes the same integer, and
what it becomes by way of an integral kind it becomes at once too. -/
theorem widenTo_lossless (value : Value) (target : Primitive) :
    ((∃ widened, value.widenTo target = some widened) ↔
        ∃ kind, value.primitive? = some kind ∧ kind.widensTo target = true) ∧
      ∀ widened, value.widenTo target = some widened →
        widened.primitive? = some target ∧
          (∀ kind, value.primitive? = some kind → kind.isIntegral = true →
            target.isIntegral = true →
              ∃ number, value.denotes? = some number ∧ widened.denotes? = some number) ∧
          (target.isIntegral = true → ∀ further, target.widensTo further = true →
            widened.widenTo further = value.widenTo further) := by
  refine ⟨exists_widenTo_iff, fun widened converted => ⟨primitive?_of_widenTo converted, ?_, ?_⟩⟩
  · intro kind primitive integral targetIntegral
    obtain ⟨number, denoted⟩ := exists_denotes? primitive integral
    exact ⟨number, denoted, denotes?_of_widenTo primitive denoted targetIntegral converted⟩
  · intro integral further widens
    exact widenTo_widenTo integral converted widens

/-- A clef from beyond the basic plane becomes its code point, and by way of it
the same number as at once. -/
theorem widenTo_lossless_clef :
    (char '𝄞').primitive? = some .char ∧ (char '𝄞').widenTo .int = some (int 0x1D11E) ∧
      (int 0x1D11E).denotes? = some 0x1D11E ∧
      (int 0x1D11E).widenTo .double = (char '𝄞').widenTo .double := by
  have converted : (char '𝄞').widenTo .int = some (int 0x1D11E) := by rfl
  obtain ⟨-, each⟩ := widenTo_lossless (char '𝄞') .int
  obtain ⟨-, kept, composes⟩ := each (int 0x1D11E) converted
  obtain ⟨number, denoted, same⟩ := kept .char rfl rfl rfl
  cases denoted
  exact ⟨rfl, converted, same, composes rfl .double (by decide)⟩

end Value

end MemberDispatch
