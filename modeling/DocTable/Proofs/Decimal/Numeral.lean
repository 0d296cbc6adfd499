import DocTable.Decimal.Reader
import Mathlib.Data.Nat.Digits.Defs

/-!
# Numerals

A numeral is an optional sign and ASCII digits, which count powers of ten from the last one on.
Reading accepts exactly the numerals, and gives their numbers (`signed?_eq_some_iff`).
-/

namespace DocTable.Decimal
set_option autoImplicit false

def digit (c : Char) : Nat := c.toNat - '0'.toNat

/-- At least one ASCII digit, and the number that they write. -/
structure WritesNat (cs : List Char) (n : Nat) : Prop where
  nonempty : cs ≠ []
  digits : ∀ c ∈ cs, c.isDigit = true
  value : Nat.ofDigits 10 (cs.reverse.map digit) = n

/-- Digits with an optional sign, and the number that they write. -/
inductive Numeral : List Char → Int → Prop where
  | unsigned {cs : List Char} {n : Nat} : WritesNat cs n → Numeral cs n
  | plus {cs : List Char} {n : Nat} : WritesNat cs n → Numeral ('+' :: cs) n
  | minus {cs : List Char} {n : Nat} : WritesNat cs n → Numeral ('-' :: cs) (-n)

variable {cs : List Char} {n : Nat} {i : Int}

theorem ofDigits_reverse (cs : List Char) :
    Nat.ofDigits 10 (cs.reverse.map digit) = natOfDigits cs := by
  rw [Nat.ofDigits_eq_foldr, List.foldr_map, List.foldr_reverse, natOfDigits]
  congr 1
  funext acc c
  exact Nat.add_comm _ _

theorem digits?_eq_some_iff : digits? cs = some n ↔ WritesNat cs n := by
  have all : cs.all Char.isDigit = true ↔ ∀ c ∈ cs, c.isDigit = true := List.all_eq_true
  unfold digits?
  constructor
  · intro read
    split at read
    · cases read
    · rename_i accepted
      simp only [Bool.or_eq_true, List.isEmpty_iff, Bool.not_eq_true', Bool.not_eq_false,
        not_or] at accepted
      exact ⟨accepted.1, all.mp accepted.2,
        (ofDigits_reverse cs).trans (Option.some.inj read)⟩
  · rintro ⟨nonempty, digits, rfl⟩
    rw [ofDigits_reverse, all.mpr digits, if_neg (by simpa using nonempty)]

/-- A sign is no digit. -/
theorem WritesNat.not_cons {c : Char} (sign : c.isDigit = false) : ¬ WritesNat (c :: cs) n :=
  fun writes => by simp [writes.digits c List.mem_cons_self] at sign

theorem signed?_eq_some_iff : signed? cs = some i ↔ Numeral cs i := by
  have read : ∀ (negative : Bool) (rest : List Char),
      (digits? rest >>= fun n => some (if negative then -(n : Int) else n)) = some i ↔
        ∃ n, WritesNat rest n ∧ (if negative then -(n : Int) else n) = i := by
    intro negative rest
    simp [Option.bind_eq_some_iff, digits?_eq_some_iff]
  rw [signed?]
  fun_cases takeSign cs with
  | case1 rest =>
    rw [read true rest]
    constructor
    · rintro ⟨n, writes, rfl⟩
      exact .minus writes
    · rintro (writes | _ | writes)
      · exact absurd writes (WritesNat.not_cons rfl)
      · exact ⟨_, writes, rfl⟩
  | case2 rest =>
    rw [read false rest]
    constructor
    · rintro ⟨n, writes, rfl⟩
      exact .plus writes
    · rintro (writes | writes)
      · exact absurd writes (WritesNat.not_cons rfl)
      · exact ⟨_, writes, rfl⟩
  | case3 cs notMinus notPlus =>
    rw [read false cs]
    constructor
    · rintro ⟨n, writes, rfl⟩
      exact .unsigned writes
    · rintro (writes | writes | writes)
      · exact ⟨_, writes, rfl⟩
      · exact absurd rfl (notPlus _)
      · exact absurd rfl (notMinus _)

theorem int64?_eq_some_iff {s : String} :
    int64? s = some i ↔ Numeral s.toList i ∧ Bounds.fitsInt64 i = true := by
  rw [← signed?_eq_some_iff]
  have bounded : int64? s = (signed? s.toList).filter Bounds.fitsInt64 := by
    rw [int64?, signed?]
    generalize takeSign s.toList = parts
    obtain ⟨negative, rest⟩ := parts
    dsimp only
    cases digits? rest with
    | none => rfl
    | some n => exact Option.filter_some.symm
  rw [bounded, Option.filter_eq_some_iff]

/-- A text writes one number at most. -/
theorem Numeral.unique {j : Int} (hi : Numeral cs i) (hj : Numeral cs j) : i = j :=
  Option.some.inj ((signed?_eq_some_iff.mpr hi).symm.trans (signed?_eq_some_iff.mpr hj))

end DocTable.Decimal
