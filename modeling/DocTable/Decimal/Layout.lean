import DocTable.Decimal.Shortest

/-!
# How a double is written

The digits come from `Decimal.shortest`; a `Layout` says when an exponent is
written and what a whole number ends with.
-/

namespace DocTable.Decimal
set_option autoImplicit false

/-- The choices of a number format. -/
structure Layout where
  tie : Tie
  /-- The exponents of the first digit that are written without `e`; all when absent. -/
  positional : Option (Int × Int)
  /-- Written after a whole number. -/
  wholeMark : String

/-- The exponent of the first digit. -/
def firstExponent (d : Decimal) : Int :=
  d.exponent + lengthInBase10 d.coefficient - 1

/-- Without an exponent. -/
def positionalText (wholeMark : String) (d : Decimal) : String :=
  let digits := Nat.toDigits 10 d.coefficient
  match d.exponent with
  | .ofNat zeros => String.ofList (digits ++ List.replicate zeros '0') ++ wholeMark
  | .negSucc n =>
    let places := n + 1
    if places < digits.length then
      String.ofList (digits.take (digits.length - places)) ++ "." ++
        String.ofList (digits.drop (digits.length - places))
    else
      "0." ++ String.ofList (List.replicate (places - digits.length) '0' ++ digits)

/-- One digit before the point, and a signed exponent. -/
def scientificText (d : Decimal) : String :=
  let digits := Nat.toDigits 10 d.coefficient
  let e := d.firstExponent
  let fraction := if digits.length ≤ 1 then "" else "." ++ String.ofList (digits.drop 1)
  let sign := if e < 0 then "-" else "+"
  String.ofList (digits.take 1) ++ fraction ++ "e" ++ sign ++ toString e.natAbs

def Layout.isPositional (layout : Layout) (d : Decimal) : Bool :=
  match layout.positional with
  | none => true
  | some (least, most) => least ≤ d.firstExponent && d.firstExponent ≤ most

/-- A finite double in the given layout. Zero keeps its sign. -/
def Layout.write (layout : Layout) (x : Binary64) : String :=
  let d := shortest layout.tie x
  let sign := if x.isNegative then "-" else ""
  sign ++ if layout.isPositional d then positionalText layout.wholeMark d else scientificText d

end DocTable.Decimal
