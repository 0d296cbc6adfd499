import DocTable.Binary64.Rounding
import DocTable.Bounds
import DocTable.Decimal.Shortest

/-!
# Reading numbers in text

Whole numbers are an optional sign and ASCII digits. A decimal is an optional
sign, digits with at most one point among them, and an optional exponent; it
reads as the nearest double, and not at all when that is infinite.
-/

namespace DocTable.Decimal
set_option autoImplicit false

/-- The number that a list of ASCII digits writes. -/
def natOfDigits (ds : List Char) : Nat :=
  ds.foldl (fun n c => 10 * n + (c.toNat - '0'.toNat)) 0

/-- A nonempty list of ASCII digits. -/
def digits? (cs : List Char) : Option Nat :=
  if cs.isEmpty || !cs.all Char.isDigit then none else some (natOfDigits cs)

/-- An optional sign, and what follows it. -/
def takeSign : List Char → Bool × List Char
  | '-' :: cs => (true, cs)
  | '+' :: cs => (false, cs)
  | cs => (false, cs)

theorem length_takeSign (cs : List Char) : (takeSign cs).2.length ≤ cs.length := by
  unfold takeSign; split <;> simp

/-- A signed 64-bit number. -/
def int64? (s : String) : Option Int := do
  let (negative, rest) := takeSign s.toList
  let n ← digits? rest
  let i : Int := if negative then -(n : Int) else n
  if Bounds.fitsInt64 i then some i else none

/-- A natural number of any size: no minus sign, not even before zero. -/
def unsigned? : List Char → Option Nat
  | '+' :: cs => digits? cs
  | cs => digits? cs

/-- An unsigned 64-bit number. -/
def uint64? (s : String) : Option Nat :=
  (unsigned? s.toList).filter fun n => decide (n ≤ Bounds.maxUInt64)

/-- A whole number of any size, with an optional sign. -/
def signed? (cs : List Char) : Option Int := do
  let (negative, rest) := takeSign cs
  let n ← digits? rest
  some (if negative then -(n : Int) else n)

/-- The decimal that digits with a point among them write. -/
def pointed? (cs : List Char) : Option Decimal :=
  let whole := cs.takeWhile Char.isDigit
  let fraction? := match cs.dropWhile Char.isDigit with
    | [] => some []
    | '.' :: rest => if rest.all Char.isDigit then some rest else none
    | _ => none
  fraction?.bind fun fraction =>
    if whole.isEmpty && fraction.isEmpty then none
    else some ⟨natOfDigits (whole ++ fraction), -(fraction.length : Int)⟩

/-- The double nearest to a decimal. A decimal far beyond the largest double, or far below the
least, is not multiplied out. -/
def toDouble? (negative : Bool) (d : Decimal) : Option Binary64 :=
  let first := d.exponent + lengthInBase10 d.coefficient
  if d.coefficient = 0 || first < -400 then some (Binary64.ofDecimal negative 0 0)
  else if 400 < first then none
  else
    let x := Binary64.ofDecimal negative d.coefficient d.exponent
    if x.isFinite then some x else none

/-- The finite double that a text writes. -/
def double? (s : String) : Option Binary64 :=
  let (negative, rest) := takeSign s.toList
  let isMark := fun (c : Char) => c = 'e' || c = 'E'
  let exponent? := match rest.dropWhile (fun c => !isMark c) with
    | [] => some 0
    | _ :: cs => signed? cs
  match pointed? (rest.takeWhile (fun c => !isMark c)), exponent? with
  | some d, some exponent => toDouble? negative ⟨d.coefficient, d.exponent + exponent⟩
  | _, _ => none

end DocTable.Decimal
