import DocTable.Binary64.Basic
import DocTable.Decimal.Power

/-!
# Rounding to a double

`nearest` takes a quotient of units to the double nearest to it, a tie to the
even significand, and overflow to infinity. Every operation is its exact result
rounded once.
-/

namespace DocTable
set_option autoImplicit false

/-- The whole number nearest to `n / d`; halves go to the even neighbour. -/
def roundHalfEven (n d : Nat) : Nat :=
  let q := n / d
  let r := n % d
  if 2 * r < d then q
  else if 2 * r = d then q + q % 2
  else q + 1

/-- `roundHalfEven` is within half a unit of the quotient. -/
theorem roundHalfEven_near {n d : Nat} (hd : 0 < d) :
    2 * n ≤ 2 * d * roundHalfEven n d + d ∧ 2 * d * roundHalfEven n d ≤ 2 * n + d := by
  have hn := Nat.div_add_mod n d
  have hr := Nat.mod_lt n hd
  simp only [roundHalfEven]
  generalize n / d = q at *
  generalize n % d = r at *
  have expand : ∀ k : Nat, 2 * d * k = 2 * (d * k) := fun k => Nat.mul_assoc 2 d k
  split
  · rw [expand]; omega
  · split
    · rcases Nat.mod_two_eq_zero_or_one q with h | h <;> rw [h, expand] <;>
        simp only [Nat.mul_add, Nat.mul_one, Nat.add_zero] <;> omega
    · rw [expand, Nat.mul_add, Nat.mul_one]; omega

namespace Binary64

/-- The double nearest to `n / d` units, with the given sign. -/
def nearest (negative : Bool) (n d : Nat) : Binary64 :=
  let spacing := (n / d).log2 - 52
  let significand := roundHalfEven n (d <<< spacing)
  ofSignAndRest negative (min (spacing * fractionSize + significand) (topExponent * fractionSize))

def ofNat (n : Nat) : Binary64 := nearest false (n * one) 1

def ofInt (i : Int) : Binary64 := nearest (decide (i < 0)) (i.natAbs * one) 1

/-- The double nearest to `coefficient * 10 ^ exponent`. -/
def ofDecimal (negative : Bool) (coefficient : Nat) (exponent : Int) : Binary64 :=
  match exponent with
  | .ofNat e => nearest negative (coefficient * Decimal.power e * one) 1
  | .negSucc e => nearest negative (coefficient * one) (Decimal.power (e + 1))

/-- The double nearest to a power of ten. -/
def powerOfTen (exponent : Nat) : Binary64 := ofDecimal false 1 exponent

/-- The product of two finite doubles. -/
def mul (x y : Binary64) : Binary64 :=
  nearest (x.isNegative != y.isNegative) (x.magnitude * y.magnitude) one

/-- The quotient of two finite doubles, the second not zero. -/
def div (x y : Binary64) : Binary64 :=
  nearest (x.isNegative != y.isNegative) (x.magnitude * one) y.magnitude

/-- The sum of two finite doubles that are not negative. -/
def addPositive (x y : Binary64) : Binary64 := nearest false (x.magnitude + y.magnitude) 1

/-- The whole number nearest to a finite double that is not negative; halves go up. -/
def wholePositive (x : Binary64) : Binary64 := ofNat ((2 * x.magnitude + one) / (2 * one))

/-- A product of `n` equal factors and `acc`, by squaring. Every product is rounded. -/
def powOnto (acc x : Binary64) (n : Nat) : Binary64 :=
  if h : n = 0 then acc
  else powOnto (if n % 2 = 1 then acc.mul x else acc) (x.mul x) (n / 2)
termination_by n
decreasing_by omega

/-- A power by squaring. -/
def pow (x : Binary64) (n : Nat) : Binary64 := powOnto (ofNat 1) x n

def neg (x : Binary64) : Binary64 := ofSignAndRest (!x.isNegative) (x.word % signBit)

/-- The double equal to a single-precision word: eight bits of exponent, 23 of fraction. -/
def ofSingle (single : UInt32) : Binary64 :=
  let word := single.toNat
  let negative := decide (1 <<< 31 ≤ word)
  let exponent := (word >>> 23) % 256
  let fraction := word % (1 <<< 23)
  if exponent = 255 then
    ofSignAndRest negative (topExponent * fractionSize + fraction <<< 29)
  else
    let significand := if exponent = 0 then fraction else 1 <<< 23 + fraction
    nearest negative (significand <<< (exponent - 1 + (1074 - 149))) 1

end Binary64
end DocTable
