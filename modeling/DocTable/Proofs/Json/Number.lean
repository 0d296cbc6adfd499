import DocTable.Json.Number
import DocTable.Proofs.Text.Trimming

/-!
# The text of a number

A number is written with digits, signs, a point and an exponent. Its text is not empty and
holds no blank (`text_ne`, `unblanked_text`), so nothing is trimmed off it.
-/

namespace DocTable
set_option autoImplicit false

namespace Text

theorem solid_of_isDigit {c : Char} (digit : c.isDigit = true) : isBlank c = false := by
  simp only [Char.isDigit, Bool.and_eq_true, decide_eq_true_eq, ge_iff_le,
    UInt32.le_iff_toNat_le] at digit
  exact solid_of_visible (digit.1.trans_lt' (by decide)) (digit.2.trans_lt (by decide))

theorem solid_digits (n : Nat) : ∀ c ∈ Nat.toDigits 10 n, isBlank c = false :=
  fun _ mem => solid_of_isDigit (Nat.isDigit_of_mem_toDigits (by decide) (by decide) mem)

theorem unblanked_nat (n : Nat) : Unblanked (toString n) := by
  rw [Nat.toString_eq_ofList_toDigits]
  exact .ofList (solid_digits n)

end Text

open Text (Unblanked)

namespace Decimal

variable (d : Decimal)

theorem unblanked_positionalText {mark : String} (marked : Unblanked mark) :
    Unblanked (positionalText mark d) := by
  have digits := Text.solid_digits d.coefficient
  have zeros (n : Nat) : ∀ c ∈ List.replicate n '0', Text.isBlank c = false := by
    intro c mem
    rw [List.eq_of_mem_replicate mem]
    decide
  have point : Unblanked "." := by decide
  have zeroPoint : Unblanked "0." := by decide
  unfold positionalText
  dsimp only
  split
  · exact .append (.ofList (List.forall_mem_append.mpr ⟨digits, zeros _⟩)) marked
  split
  · refine .append (.append (.ofList ?_) point) (.ofList ?_)
    · exact fun c mem => digits c (List.mem_of_mem_take mem)
    · exact fun c mem => digits c (List.mem_of_mem_drop mem)
  · exact .append zeroPoint (.ofList (List.forall_mem_append.mpr ⟨zeros _, digits⟩))

theorem unblanked_scientificText : Unblanked (scientificText d) := by
  have digits := Text.solid_digits d.coefficient
  have first : Unblanked (String.ofList ((Nat.toDigits 10 d.coefficient).take 1)) :=
    .ofList fun c mem => digits c (List.mem_of_mem_take mem)
  have point : Unblanked "." := by decide
  have mark : Unblanked "e" := by decide
  have sign : Unblanked (if d.firstExponent < 0 then "-" else "+") := by
    split <;> decide
  have fraction : Unblanked (if (Nat.toDigits 10 d.coefficient).length ≤ 1 then ""
      else "." ++ String.ofList ((Nat.toDigits 10 d.coefficient).drop 1)) := by
    split
    · decide
    · exact .append point (.ofList fun c mem => digits c (List.mem_of_mem_drop mem))
  exact (((first.append fraction).append mark).append sign).append
    (Text.unblanked_nat _)

theorem positionalText_ne (mark : String) : positionalText mark d ≠ "" := by
  unfold positionalText
  dsimp only
  split
  · simp [Nat.toDigits_ne_nil]
  · split <;> simp

theorem scientificText_ne : scientificText d ≠ "" := by
  simp [scientificText]

end Decimal

namespace Json.Number

theorem unblanked_text (n : Number) : Unblanked n.text := by
  cases n with
  | int i _ =>
    cases i with
    | ofNat n => exact Text.unblanked_nat n
    | negSucc n => exact .append (s := "-") (by decide) (Text.unblanked_nat (n + 1))
  | double x _ =>
    have sign : Unblanked (if x.isNegative then "-" else "") := by
      split <;> decide
    refine sign.append ?_
    split
    · exact Decimal.unblanked_positionalText _ (by decide)
    · exact Decimal.unblanked_scientificText _

theorem text_ne (n : Number) : n.text ≠ "" := by
  cases n with
  | int i _ =>
    cases i with
    | ofNat n =>
      show toString n ≠ ""
      simp
    | negSucc n =>
      show "-" ++ toString (n + 1) ≠ ""
      simp
  | double x _ =>
    intro empty
    have digits := (String.append_eq_empty_iff.mp empty).2
    split at digits
    · exact Decimal.positionalText_ne _ _ digits
    · exact Decimal.scientificText_ne _ digits

end Json.Number
end DocTable
