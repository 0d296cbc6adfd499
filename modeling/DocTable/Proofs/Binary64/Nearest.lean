import DocTable.Binary64.Rounding
import DocTable.Proofs.Binary64.Value

/-!
# The magnitude of a rounded quotient

A quotient is rounded to a significand of at most 53 bits at a spacing, and the word that is
made of the two has just that magnitude (`magnitude_nearest`), also where the significand is
rounded up to the next power of two. So rounding does not cross a power of two
(`two_pow_le_magnitude_nearest`).
-/

namespace DocTable
set_option autoImplicit false

section RoundHalfEven

variable {n d k : Nat} (pos : 0 < d)
include pos

theorem roundHalfEven_le (below : n ≤ k * d) : roundHalfEven n d ≤ k := by
  refine Nat.lt_succ_iff.mp (Nat.lt_of_mul_lt_mul_left (a := 2 * d) ?_)
  calc 2 * d * roundHalfEven n d ≤ 2 * n + d := (roundHalfEven_near pos).2
    _ ≤ 2 * (k * d) + d := Nat.add_le_add_right (Nat.mul_le_mul_left 2 below) d
    _ < 2 * (k * d) + 2 * d := by omega
    _ = 2 * d * (k + 1) := by ring

theorem le_roundHalfEven (above : k * d ≤ n) : k ≤ roundHalfEven n d := by
  refine Nat.lt_succ_iff.mp (Nat.lt_of_mul_lt_mul_left (a := 2 * d) ?_)
  calc 2 * d * k = 2 * (k * d) := by ring
    _ ≤ 2 * n := Nat.mul_le_mul_left 2 above
    _ ≤ 2 * d * roundHalfEven n d + d := (roundHalfEven_near pos).1
    _ < 2 * d * roundHalfEven n d + 2 * d := by omega
    _ = 2 * d * (roundHalfEven n d + 1) := by ring

end RoundHalfEven

namespace Binary64

variable {negative : Bool} {rest n d : Nat}

/-! ## Fields of a word -/

theorem exponentField_ofSignAndRest (h : rest < signBit) :
    (ofSignAndRest negative rest).exponentField = rest / fractionSize := by
  rw [exponentField, word_ofSignAndRest h]
  simp only [signBit, fractionSize] at h ⊢
  split <;> omega

theorem fractionField_ofSignAndRest (h : rest < signBit) :
    (ofSignAndRest negative rest).fractionField = rest % fractionSize := by
  rw [fractionField, word_ofSignAndRest h]
  simp only [signBit, fractionSize] at h ⊢
  split <;> omega

/-- An exponent field counts from one what stands above a significand with its top bit; a
significand without it has the least spacing. -/
theorem magnitude_ofSignAndRest {spacing significand : Nat}
    (rest : spacing * fractionSize + significand < signBit)
    (atMost : significand ≤ 2 * fractionSize)
    (top : 0 < spacing → fractionSize ≤ significand) :
    (ofSignAndRest negative (spacing * fractionSize + significand)).magnitude =
      significand * 2 ^ spacing := by
  rw [magnitude_eq, Binary64.significand, Binary64.spacing, exponentField_ofSignAndRest rest,
    fractionField_ofSignAndRest rest]
  by_cases low : significand < fractionSize
  · obtain rfl : spacing = 0 := by omega
    rw [Nat.zero_mul, Nat.zero_add, Nat.div_eq_of_lt low, if_pos rfl, Nat.mod_eq_of_lt low]
  · obtain ⟨more, rfl⟩ := Nat.exists_eq_add_of_le (Nat.le_of_not_lt low)
    by_cases carried : more < fractionSize
    · have field : (spacing * fractionSize + (fractionSize + more)) / fractionSize =
          spacing + 1 := by
        simp only [fractionSize] at carried ⊢
        omega
      have fraction : (spacing * fractionSize + (fractionSize + more)) % fractionSize = more := by
        simp only [fractionSize] at carried ⊢
        omega
      rw [field, fraction, if_neg (Nat.succ_ne_zero spacing), Nat.add_sub_cancel]
    · obtain rfl : more = fractionSize := by omega
      have field : (spacing * fractionSize + (fractionSize + fractionSize)) / fractionSize =
          spacing + 2 := by
        simp only [fractionSize]
        omega
      have fraction :
          (spacing * fractionSize + (fractionSize + fractionSize)) % fractionSize = 0 := by
        simp only [fractionSize]
        omega
      rw [field, fraction, if_neg (Nat.succ_ne_zero _), Nat.add_zero]
      show fractionSize * 2 ^ (spacing + 1) = _
      ring

/-! ## Rounding -/

/-- The spacing of the doubles around a quotient. -/
def spacingAt (n d : Nat) : Nat := (n / d).log2 - 52

/-- The significand that a quotient is rounded to. -/
def roundedAt (n d : Nat) : Nat := roundHalfEven n (d * 2 ^ spacingAt n d)

theorem fractionSize_eq : fractionSize = 2 ^ 52 := rfl

theorem nearest_eq (negative : Bool) (n d : Nat) :
    nearest negative n d = ofSignAndRest negative
      (min (spacingAt n d * fractionSize + roundedAt n d) (topExponent * fractionSize)) := by
  rw [roundedAt, ← Nat.shiftLeft_eq]
  rfl

theorem isFinite_nearest_iff : (nearest negative n d).isFinite = true ↔
    spacingAt n d * fractionSize + roundedAt n d < topExponent * fractionSize := by
  have small : min (spacingAt n d * fractionSize + roundedAt n d) (topExponent * fractionSize) <
      signBit := by
    refine (Nat.min_le_right _ _).trans_lt ?_
    decide
  rw [nearest_eq, isFinite, exponentField_ofSignAndRest small, bne_iff_ne]
  simp only [topExponent, fractionSize]
  omega

section Positive

variable (pos : 0 < d)
include pos

theorem roundedAt_le (n : Nat) : roundedAt n d ≤ 2 * fractionSize := by
  refine roundHalfEven_le (by positivity) ?_
  have below : n < 2 ^ ((n / d).log2 + 1) * d := (Nat.div_lt_iff_lt_mul pos).mp Nat.lt_log2_self
  calc n ≤ 2 ^ ((n / d).log2 + 1) * d := below.le
    _ ≤ 2 ^ (spacingAt n d + 53) * d :=
      Nat.mul_le_mul_right d (Nat.pow_le_pow_right two_pos (by rw [spacingAt]; omega))
    _ = 2 * fractionSize * (d * 2 ^ spacingAt n d) := by rw [fractionSize_eq]; ring

/-- Above the least spacing a significand has its top bit. -/
theorem le_roundedAt (spaced : 52 ≤ (n / d).log2) : fractionSize ≤ roundedAt n d := by
  refine le_roundHalfEven (by positivity) ?_
  have nonzero : n / d ≠ 0 := by
    intro zero
    rw [zero] at spaced
    exact absurd spaced (by decide)
  calc fractionSize * (d * 2 ^ spacingAt n d)
      = 2 ^ (spacingAt n d + 52) * d := by rw [fractionSize_eq]; ring
    _ = 2 ^ (n / d).log2 * d := by rw [spacingAt, Nat.sub_add_cancel spaced]
    _ ≤ n / d * d := Nat.mul_le_mul_right d (Nat.log2_self_le nonzero)
    _ ≤ n := Nat.div_mul_le_self n d

/-- A rounded quotient has the magnitude of its significand at its spacing. -/
theorem magnitude_nearest (finite : (nearest negative n d).isFinite = true) :
    (nearest negative n d).magnitude = roundedAt n d * 2 ^ spacingAt n d := by
  have least := isFinite_nearest_iff.mp finite
  rw [nearest_eq, Nat.min_eq_left least.le]
  refine magnitude_ofSignAndRest (least.trans (by decide)) (roundedAt_le pos n) ?_
  intro spaced
  exact le_roundedAt pos (by rw [spacingAt] at spaced; omega)

/-- A quotient is not rounded below the power of two under it. -/
theorem two_pow_le_magnitude_nearest (spaced : 52 ≤ (n / d).log2)
    (finite : (nearest negative n d).isFinite = true) :
    2 ^ (n / d).log2 ≤ (nearest negative n d).magnitude := by
  rw [magnitude_nearest pos finite]
  calc 2 ^ (n / d).log2 = fractionSize * 2 ^ spacingAt n d := by
        rw [fractionSize_eq, ← Nat.pow_add, spacingAt, Nat.add_sub_cancel' spaced]
    _ ≤ roundedAt n d * 2 ^ spacingAt n d := Nat.mul_le_mul_right _ (le_roundedAt pos spaced)

end Positive

/-! ## Whole numbers -/

variable {i j : Int} {k : Nat}

theorem log2_units (k : Nat) (nonzero : k ≠ 0) :
    (k * one / 1).log2 = k.log2 + oneExponent := by
  rw [Nat.div_one, one_eq, Nat.log2_eq_iff (by positivity)]
  constructor
  · rw [Nat.pow_add]
    exact Nat.mul_le_mul_right _ (Nat.log2_self_le nonzero)
  · rw [Nat.add_right_comm, Nat.pow_add]
    exact Nat.mul_lt_mul_of_pos_right Nat.lt_log2_self (by positivity)

/-- Whole numbers of 64 bits are far from the largest double. -/
theorem isFinite_ofInt (bounded : i.natAbs < 2 ^ 64) : (ofInt i).isFinite = true := by
  have spacing : spacingAt (i.natAbs * one) 1 ≤ 1085 := by
    rw [spacingAt]
    by_cases zero : i.natAbs = 0
    · rw [zero, Nat.zero_mul, Nat.zero_div]
      decide
    · have small : i.natAbs.log2 < 64 := (Nat.log2_lt zero).mpr bounded
      rw [log2_units _ zero, oneExponent]
      omega
  have rounded := roundedAt_le Nat.one_pos (i.natAbs * one)
  rw [ofInt, isFinite_nearest_iff]
  simp only [topExponent, fractionSize] at rounded ⊢
  omega

/-- Rounding does not take a whole number below a power of two. -/
theorem two_pow_le_natAbs_of_toInt?_ofInt (spaced : 52 ≤ k) (above : 2 ^ k ≤ i.natAbs)
    (read : (ofInt i).toInt? = some j) : 2 ^ k ≤ j.natAbs := by
  obtain ⟨finite, whole⟩ := toInt?_eq_some_iff.mp read
  have nonzero : i.natAbs ≠ 0 := by
    have := Nat.two_pow_pos k
    omega
  have top : k ≤ i.natAbs.log2 := (Nat.le_log2 nonzero).mpr above
  have logarithm := log2_units i.natAbs nonzero
  have magnitude := two_pow_le_magnitude_nearest Nat.one_pos (by omega) finite
  refine Nat.le_of_mul_le_mul_right (c := one) ?_ one_pos
  calc 2 ^ k * one = 2 ^ (k + oneExponent) := by rw [one_eq, Nat.pow_add]
    _ ≤ 2 ^ (i.natAbs * one / 1).log2 := Nat.pow_le_pow_right two_pos (by omega)
    _ ≤ (ofInt i).magnitude := magnitude
    _ = j.natAbs * one := magnitude_of_value whole

end Binary64
end DocTable
