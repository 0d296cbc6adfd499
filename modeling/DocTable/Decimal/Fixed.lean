import DocTable.Binary64.Rounding
import DocTable.Decimal.Reader

/-!
# Fixed-point decimals

A coefficient below `2 ^ 96` with at most 28 places after the point. Text with
more digits than fit is cut, and the digit after the cut decides whether the last
one goes up. As a double, whole part and fraction are converted by themselves,
and their sum is rounded again at the last place.
-/

namespace DocTable.Decimal
set_option autoImplicit false

/-- The number `coefficient / 10 ^ places`, or its negative. -/
structure Fixed where
  negative : Bool
  coefficient : Nat
  places : Nat
  deriving DecidableEq, Repr

namespace Fixed

/-- Every coefficient is below it. -/
def bound : Nat := 1 <<< 96

def maxPlaces : Nat := 28

/-- Digits read so far: their number, and how many of them stand after the point. -/
structure Digits where
  number : Nat
  places : Nat
  deriving DecidableEq, Repr

/-- One more in the last place. A number that then has no room loses that place. -/
def Digits.up? (ds : Digits) : Option Digits :=
  if ds.number + 1 < bound then some ⟨ds.number + 1, ds.places⟩
  else if ds.places = 0 then none
  else some ⟨(ds.number + 5) / 10, ds.places - 1⟩

def isDigitOrUnderscore (c : Char) : Bool := c.isDigit || c = '_'

/-- Rounds by the first of the characters that are cut off. -/
def Digits.cut? (ds : Digits) (rest : List Char) : Option Digits :=
  if !rest.all isDigitOrUnderscore then none
  else
    match rest with
    | c :: _ => if '5' ≤ c ∧ c ≤ '9' then ds.up? else some ds
    | [] => some ds

/-- Numbers below it take another digit within 64 bits. -/
def wordBound : Nat := Bounds.maxUInt64 / 10 - 255

/-- Whether the last digit went to a number that needed more than 64 bits for it. -/
def Digits.isWide (ds : Digits) : Bool := wordBound ≤ ds.number / 10

/-- Reads digits up to the end of a text. Underscores may follow the first digit, and one
point may stand anywhere. Underscores after the last place are passed over in a wide number;
in any other the first of them is where the text is cut. -/
def Digits.read? (ds : Digits) (started pointed : Bool) : List Char → Option Digits
  | [] => if started then some ds else none
  | c :: cs =>
    if pointed && ds.places == maxPlaces then
      if c = '_' && ds.isWide then Digits.read? ds started pointed cs else ds.cut? (c :: cs)
    else if c.isDigit then
      let number := 10 * ds.number + (c.toNat - '0'.toNat)
      if number < bound then
        Digits.read? ⟨number, if pointed then ds.places + 1 else 0⟩ true pointed cs
      else if pointed then ds.cut? (c :: cs)
      else none
    else if c = '.' && !pointed then Digits.read? ds started true cs
    else if c = '_' && started then Digits.read? ds started pointed cs
    else none

/-- A number without an exponent. Zero has no sign. -/
def plain? (cs : List Char) : Option Fixed := do
  let (negative, rest) := takeSign cs
  let ds ← Digits.read? ⟨0, 0⟩ false false rest
  some ⟨negative && ds.number != 0, ds.number, ds.places⟩

/-- Times `10 ^ n`; none when that has no room. -/
def raise? (d : Fixed) (n : Nat) : Option Fixed :=
  if n ≤ d.places then some { d with places := d.places - n }
  else if maxPlaces < n then none
  else
    let coefficient := d.coefficient * power (n - d.places)
    if coefficient < bound then some ⟨d.negative, coefficient, 0⟩ else none

/-- Divided by `10 ^ n`, rounded to the greatest number of places. -/
def lower? (d : Fixed) (n : Nat) : Option Fixed :=
  if maxPlaces < n then none
  else if d.places + n ≤ maxPlaces then some { d with places := d.places + n }
  else
    let step := power (d.places + n - maxPlaces)
    some ⟨d.negative, (2 * d.coefficient + step) / (2 * step), maxPlaces⟩

/-- Shifts the point as an exponent says. -/
def shift? (d : Fixed) : List Char → Option Fixed
  | '-' :: cs => (unsigned? cs).bind d.lower?
  | cs => (unsigned? cs).bind d.raise?

/-- The decimal that a text writes, with an exponent or without. -/
def ofText? (s : String) : Option Fixed :=
  let isMark := fun (c : Char) => c = 'e' || c = 'E'
  let base := s.toList.takeWhile fun c => !isMark c
  match s.toList.dropWhile (fun c => !isMark c) with
  | [] => plain? base
  | _ :: exponent => (plain? base).bind fun d => d.shift? exponent

/-- A double close to a decimal; a long coefficient may miss the nearest one by a little. A
negative zero, which only shifting the point can leave, keeps its sign. -/
def toDouble (d : Fixed) : Binary64 :=
  let unit := power d.places
  let whole := Binary64.ofNat (d.coefficient / unit)
  let fraction := (Binary64.ofNat (d.coefficient % unit)).div (Binary64.ofNat unit)
  let scale := (Binary64.ofNat 10).pow d.places
  let x :=
    if fraction.isZero then whole
    else (((whole.addPositive fraction).mul scale).wholePositive).div scale
  if d.negative then x.neg else x

example : (ofText? "-12.50").map toDouble = some ⟨0xc029000000000000⟩ := by decide +kernel
example : ofText? "0.00000000000000000000000000005" = some ⟨false, 1, 28⟩ := by decide +kernel
example : ofText? "1_0.5e-28" = some ⟨false, 11, 28⟩ := by decide +kernel
example : ofText? "1e-29" = none := by decide +kernel
example : ofText? "0.0000000000000000000000000001_5" = some ⟨false, 1, 28⟩ := by decide +kernel
example : ofText? "0.1000000000000000000000000001_5" =
    some ⟨false, 1000000000000000000000000002, 28⟩ := by decide +kernel

end Fixed
end DocTable.Decimal
