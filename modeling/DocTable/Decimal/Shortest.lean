import DocTable.Binary64.Basic
import DocTable.Decimal.Power

/-!
# Shortest decimals

Every real strictly nearer to a double than half the way to its neighbours
rounds to that double, and so do the two ends when its significand is even.
`shortest` is a decimal in that interval with the fewest digits; of two with
equally few, the nearer to the double.
-/

namespace DocTable
set_option autoImplicit false

/-- The number `coefficient * 10 ^ exponent`. -/
structure Decimal where
  coefficient : Nat
  exponent : Int
  deriving DecidableEq, Repr, Inhabited

namespace Decimal

/-- Which of two equally near decimals is taken. -/
inductive Tie where
  | even
  | up
  deriving DecidableEq, Repr

/-- A double and the ends of its rounding interval, in units of `2 ^ -1076`. -/
structure Interval where
  low : Nat
  value : Nat
  high : Nat
  closed : Bool

def Interval.ofDouble (x : Binary64) : Interval :=
  let value := 4 * x.magnitude
  let gap := 1 <<< x.spacing
  let below := if x.fractionField = 0 ∧ 1 < x.exponentField then gap else 2 * gap
  ⟨value - below, value, value + 2 * gap, x.significand % 2 == 0⟩

/-- The number of units of an interval in one. -/
def Interval.one : Nat := 4 * Binary64.one

/-- Whether `a / d` lies in the interval. -/
def Interval.holds (i : Interval) (a d : Nat) : Bool :=
  if i.closed then i.low * d ≤ a && a ≤ i.high * d
  else i.low * d < a && a < i.high * d

def lengthInBase10 (n : Nat) : Nat := (Nat.toDigits 10 n).length

/-- The exponent of the first digit. No double is below `10 ^ -400`, so the shifted
value is at least one. -/
def Interval.leadingExponent (i : Interval) : Int :=
  (lengthInBase10 (i.value * power 400 / Interval.one) : Int) - 401

/-- The better neighbour of the value among the multiples of `10 ^ exponent`, if one of the
two lies in the interval. -/
def Interval.onGrid? (tie : Tie) (i : Interval) (exponent : Int) : Option Decimal :=
  let fine := power (-exponent).toNat
  let step := Interval.one * power exponent.toNat
  let below := i.value * fine / step
  let above := below + 1
  let toBelow := i.value * fine - below * step
  let toAbove := above * step - i.value * fine
  let pick := fun (coefficient : Nat) => some (Decimal.mk coefficient exponent)
  match i.holds (below * step) fine, i.holds (above * step) fine with
  | false, false => none
  | true, false => pick below
  | false, true => pick above
  | true, true =>
    if toBelow < toAbove then pick below
    else if toAbove < toBelow then pick above
    else
      match tie with
      | .up => pick above
      | .even => if below % 2 = 0 then pick below else pick above

/-- Without the zeros at the end of the coefficient. -/
def stripZeros (d : Decimal) : Decimal :=
  if h : 0 < d.coefficient ∧ d.coefficient % 10 = 0 then
    stripZeros ⟨d.coefficient / 10, d.exponent + 1⟩
  else d
termination_by d.coefficient
decreasing_by exact Nat.div_lt_self h.1 (by decide)

/-- The shortest decimal that rounds to the absolute value of a finite double. Seventeen
digits are always enough. -/
def shortest (tie : Tie) (x : Binary64) : Decimal :=
  if x.isZero then ⟨0, 0⟩
  else
    let interval := Interval.ofDouble x
    let leading := interval.leadingExponent
    match (List.range 17).findSome? fun (more : Nat) => interval.onGrid? tie (leading - more) with
    | some d => d.stripZeros
    | none => ⟨0, 0⟩

end Decimal
end DocTable
