/-!
# Doubles as words

An IEEE 754 double is its 64 bits: sign, eleven bits of exponent, 52 bits of
fraction. A finite double is a whole number of units of `2^-1074`, so its
magnitude is a natural number and every comparison below is one of naturals.
-/

namespace DocTable
set_option autoImplicit false

structure Binary64 where
  bits : UInt64
  deriving DecidableEq, Repr, Inhabited

namespace Binary64

/-- The number of units in one. -/
def one : Nat := 1 <<< 1074

/-- The number of fractions, and the unit of the exponent field in a word. -/
def fractionSize : Nat := 0x10000000000000

/-- The top bit of a word, set in negative doubles. -/
def signBit : Nat := 0x8000000000000000

/-- The field of the infinities and of what is no number. -/
def topExponent : Nat := 2047

def word (x : Binary64) : Nat := x.bits.toNat

def isNegative (x : Binary64) : Bool := decide (signBit ≤ x.word)

def exponentField (x : Binary64) : Nat := x.word / fractionSize % 2048

def fractionField (x : Binary64) : Nat := x.word % fractionSize

def isFinite (x : Binary64) : Bool := x.exponentField != topExponent

/-- Neighbours of the same exponent field are `2 ^ spacing` units apart. -/
def spacing (x : Binary64) : Nat := x.exponentField - 1

def significand (x : Binary64) : Nat :=
  if x.exponentField = 0 then x.fractionField else fractionSize + x.fractionField

/-- The units in the absolute value of a finite double. -/
def magnitude (x : Binary64) : Nat := x.significand <<< x.spacing

def isZero (x : Binary64) : Bool := x.magnitude == 0

/-- A sign and the 63 bits below it. -/
def ofSignAndRest (negative : Bool) (rest : Nat) : Binary64 :=
  ⟨UInt64.ofNat ((if negative then signBit else 0) + rest)⟩

def zero : Binary64 := ⟨0⟩

/-- The whole number that a double is, when it is one. -/
def toInt? (x : Binary64) : Option Int :=
  if x.isFinite && x.magnitude % one == 0 then
    let whole := x.magnitude / one
    some (if x.isNegative then -(whole : Int) else whole)
  else none

/-- The absolute value of a finite double without its fraction. -/
def wholePart (x : Binary64) : Nat := x.magnitude / one

theorem word_ofSignAndRest {negative : Bool} {rest : Nat} (h : rest < signBit) :
    (ofSignAndRest negative rest).word = (if negative then signBit else 0) + rest := by
  rw [word, ofSignAndRest, UInt64.toNat_ofNat']
  apply Nat.mod_eq_of_lt
  simp only [signBit] at h ⊢
  split <;> omega

end Binary64
end DocTable
