import DocTable.Binary64.Basic
import Mathlib.Algebra.Order.Field.Rat
import Mathlib.Algebra.Order.Field.Power
import Mathlib.Tactic.FieldSimp
import Mathlib.Tactic.Positivity
import Mathlib.Tactic.Ring

/-!
# The number that a double is

A finite double is its significand times the power of two that its exponent field names, with
its sign (`value`). Reading a whole number off its units is exact: there is one if and only if
the double is that number (`toInt?_eq_some_iff`).
-/

namespace DocTable.Binary64
set_option autoImplicit false

/-- The exact value of a finite double. The subnormal ones share the least exponent. -/
def value (x : Binary64) : ℚ :=
  (if x.isNegative then -1 else 1) * x.significand *
    2 ^ ((max x.exponentField 1 : ℕ) - 1075 : ℤ)

/-- One is this power of two, in units. -/
def oneExponent : ℕ := 1074

variable {x : Binary64} {i : Int}

theorem one_eq : one = 2 ^ oneExponent := Nat.one_shiftLeft oneExponent

theorem one_pos : 0 < one := by
  rw [one_eq]
  positivity

theorem magnitude_eq (x : Binary64) : x.magnitude = x.significand * 2 ^ x.spacing :=
  Nat.shiftLeft_eq _ _

/-- In units a value is a whole number. -/
theorem value_mul_one (x : Binary64) :
    x.value * one = ((if x.isNegative then -x.magnitude else x.magnitude : ℤ) : ℚ) := by
  have exponent : ((max x.exponentField 1 : ℕ) - 1075 : ℤ) = x.spacing - oneExponent := by
    rw [spacing, oneExponent]
    omega
  rw [value, exponent, zpow_sub₀ two_ne_zero, zpow_natCast, zpow_natCast, magnitude_eq, one_eq]
  split <;> push_cast <;> field_simp

theorem value_eq_iff : x.value = i ↔
    (if x.isNegative then -x.magnitude else x.magnitude : ℤ) = i * one := by
  have unit : (one : ℚ) ≠ 0 := Nat.cast_ne_zero.mpr one_pos.ne'
  rw [← mul_left_inj' unit, value_mul_one]
  norm_cast

theorem magnitude_of_value (whole : x.value = i) : x.magnitude = i.natAbs * one := by
  have absolute := congrArg Int.natAbs (value_eq_iff.mp whole)
  rw [Int.natAbs_mul, Int.natAbs_natCast] at absolute
  rw [← absolute]
  split <;> simp

/-- A double has a whole number exactly when it is that number. -/
theorem toInt?_eq_some_iff : x.toInt? = some i ↔ x.isFinite = true ∧ x.value = i := by
  rw [toInt?]
  cases finite : x.isFinite with
  | false => simp
  | true =>
    simp only [Bool.true_and, beq_iff_eq, true_and]
    constructor
    · intro read
      obtain ⟨whole, ⟨⟩⟩ := Option.ite_none_right_eq_some.mp read
      have units : (x.magnitude : ℤ) = (x.magnitude / one : ℕ) * one := by
        exact_mod_cast (Nat.div_mul_cancel (Nat.dvd_of_mod_eq_zero whole)).symm
      rw [value_eq_iff]
      split
      · rw [neg_mul, ← units]
      · exact units
    · intro whole
      have units := magnitude_of_value whole
      have same := value_eq_iff.mp whole
      have nonzero : (one : ℤ) ≠ 0 := Int.natCast_ne_zero.mpr one_pos.ne'
      rw [units, Nat.mul_mod_left, if_pos rfl, Nat.mul_div_cancel _ one_pos]
      rw [units, Nat.cast_mul] at same
      congr 1
      cases sign : x.isNegative with
      | false =>
        rw [sign, if_neg Bool.false_ne_true] at same
        exact mul_right_cancel₀ nonzero same
      | true =>
        rw [sign, if_pos rfl, ← neg_mul] at same
        exact mul_right_cancel₀ nonzero same

end DocTable.Binary64
