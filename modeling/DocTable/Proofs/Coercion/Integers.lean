import DocTable.Json.Parser
import DocTable.Proofs.Coercion.Typed

/-!
# Numbers in columns of integers

A column of integers takes a number when its exact value (`Json.Number.value`) is a whole
number of 64 bits, whichever form it has, and keeps that value; only the least of them is not
taken as a double (`ColumnType.coerce_integer_iff`). Looking at the nearest double of what is
no whole number of 64 bits finds nothing more (`Json.Number.integer?_eq`).
-/

namespace DocTable
set_option autoImplicit false

namespace Json.Number

/-- The exact value of a number. -/
def value : Number → ℚ
  | .int i _ => i
  | .double x _ => x.value

variable {n : Number} {i k : Int}

theorem value_double {x : Binary64} {finite : x.isFinite = true} :
    (double x finite).value = k ↔ x.toInt? = some k := by
  rw [Binary64.toInt?_eq_some_iff, value, and_iff_right finite]

theorem value_int {stored : Bounds.minInt64 ≤ i ∧ i ≤ Bounds.maxUInt64} :
    (int i stored).value = k ↔ i = k := by
  rw [value, Int.cast_inj]

theorem within_iff : k.natAbs ≤ Bounds.maxInt64 ↔ -2 ^ 63 < k ∧ k ≤ 2 ^ 63 - 1 := by
  rw [Bounds.maxInt64]
  omega

theorem fits_iff : Bounds.fitsInt64 k = true ↔ -2 ^ 63 ≤ k ∧ k ≤ 2 ^ 63 - 1 := by
  rw [Bounds.fitsInt64_iff, Bounds.minInt64, Bounds.maxInt64]
  omega

theorem integer?_eq_some_iff : n.integer? = some k ↔
    n.value = k ∧ -2 ^ 63 ≤ k ∧ k ≤ 2 ^ 63 - 1 ∧
      (k = -2 ^ 63 → ∃ stored, n = .int k stored) := by
  cases n with
  | int i stored =>
    rw [value_int, integer?, toInt64?, Option.ite_none_right_eq_some, fits_iff]
    constructor
    · rintro ⟨⟨low, high⟩, ⟨⟩⟩
      exact ⟨rfl, low, high, fun _ => ⟨stored, rfl⟩⟩
    · rintro ⟨rfl, low, high, -⟩
      exact ⟨⟨low, high⟩, rfl⟩
  | double x _ =>
    rw [value_double, integer?, Option.filter_eq_some_iff, decide_eq_true_iff, within_iff]
    refine and_congr_right fun _ => ?_
    constructor
    · rintro ⟨low, high⟩
      exact ⟨low.le, high, fun least => absurd least low.ne'⟩
    · rintro ⟨low, high, never⟩
      refine ⟨lt_of_le_of_ne low ?_, high⟩
      intro least
      obtain ⟨-, ⟨⟩⟩ := never least.symm

/-- The nearest double of a whole number beyond 64 bits is beyond them too, so it may be looked
at for any number. -/
theorem integer?_eq (n : Number) :
    n.integer? = n.toInt64?.or
      (n.toDouble.toInt?.filter fun i => decide (i.natAbs ≤ Bounds.maxInt64)) := by
  cases n with
  | double x _ => rfl
  | int i _ =>
    rw [integer?, toInt64?]
    split
    · rfl
    · rename_i beyond
      have above : 2 ^ 63 ≤ i.natAbs := by
        rw [fits_iff] at beyond
        omega
      symm
      rw [Option.none_or, Option.filter_eq_none_iff]
      intro j read within
      have far := Binary64.two_pow_le_natAbs_of_toInt?_ofInt (by decide) above read
      have near := of_decide_eq_true within
      rw [Bounds.maxInt64] at near
      omega

end Json.Number

namespace ColumnType

open Json (Number)

theorem coerce_number_eq_ok_iff {column : String} {n : Number} {x : SqlValue} :
    ColumnType.number.coerce column (.num n) = .ok x ↔
      ∃ k, x = .integer k ∧ n.integer? = some k := by
  constructor
  · intro ok
    obtain ⟨k, read, rfl⟩ := read_of_ok ok
    exact ⟨k, rfl, read⟩
  · rintro ⟨k, rfl, read⟩
    rw [coerce, coerceNumber, read]
    rfl

/-- **Integers that are taken.** A column of integers takes a number if and only if its exact
value is a whole number of 64 bits, and keeps it; minus `2 ^ 63` it takes as a whole number
only, and not as a double. So two forms of any other number are both taken or both refused.
What is tried on a whole number beyond 64 bits, its nearest double, is never taken. -/
theorem coerce_integer_iff (column : String) (n : Number) :
    (∀ x, ColumnType.number.coerce column (.num n) = .ok x ↔
      ∃ k : ℤ, x = .integer k ∧ n.value = k ∧ -2 ^ 63 ≤ k ∧ k ≤ 2 ^ 63 - 1 ∧
        (k = -2 ^ 63 → ∃ stored, n = .int k stored)) ∧
    (∀ m : Number, m.value = n.value → n.value ≠ -2 ^ 63 →
      ∀ x, ColumnType.number.coerce column (.num m) = .ok x ↔
        ColumnType.number.coerce column (.num n) = .ok x) ∧
    n.integer? = n.toInt64?.or
      (n.toDouble.toInt?.filter fun i => decide (i.natAbs ≤ Bounds.maxInt64)) := by
  refine ⟨?_, ?_, n.integer?_eq⟩
  · intro x
    simp only [coerce_number_eq_ok_iff, Number.integer?_eq_some_iff]
  · intro m same notLeast x
    simp only [coerce_number_eq_ok_iff, Number.integer?_eq_some_iff, same]
    refine exists_congr fun k => and_congr_right fun _ => and_congr_right fun whole => ?_
    have other : k ≠ -2 ^ 63 := by
      rintro rfl
      refine notLeast (whole.trans ?_)
      norm_num
    simp only [other, false_implies]

/-- Minus `2 ^ 63`, written with a fraction, is a double of that very value, and is refused
where the whole number is taken. -/
theorem least_double_refused :
    Json.parse? "-9223372036854775808.0" = some (.num (.double ⟨0xc3e0000000000000⟩)) ∧
    (Number.double ⟨0xc3e0000000000000⟩).value = (-9223372036854775808 : ℤ) ∧
    ColumnType.number.coerce "k" (.num (.int (-9223372036854775808))) =
      .ok (.integer (-9223372036854775808)) ∧
    ∀ x, ColumnType.number.coerce "k" (.num (.double ⟨0xc3e0000000000000⟩)) ≠ .ok x := by
  refine ⟨by decide +kernel, ?_, rfl, ?_⟩
  · rw [Number.value_double]
    decide +kernel
  · intro x ok
    obtain ⟨k, -, read⟩ := coerce_number_eq_ok_iff.mp ok
    have none : (Number.double ⟨0xc3e0000000000000⟩).integer? = none := by decide +kernel
    rw [none] at read
    cases read

end ColumnType
end DocTable
