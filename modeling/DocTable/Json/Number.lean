import DocTable.Binary64.Rounding
import DocTable.Decimal.Layout
import DocTable.Decimal.Reader

/-!
# JSON numbers

A number without point and exponent that fits 64 bits is a whole number; every
other one is a double. The digits of a double count as long as they fit 64 bits
together; the value they make is rounded, then multiplied or divided by a
rounded power of ten, and rounded again.
-/

namespace DocTable.Json
set_option autoImplicit false

/-- A whole number of at most 64 bits, signed or not, or a finite double: `1` and `1.0` differ. -/
inductive Number where
  | int (i : Int) (stored : Bounds.minInt64 ≤ i ∧ i ≤ Bounds.maxUInt64 := by decide)
  | double (x : Binary64) (finite : x.isFinite = true := by decide)
  deriving DecidableEq, Repr

instance : Inhabited Number := ⟨.int 0⟩

/-- Positional from `0.00001` to below `1e+16`; a whole double ends in `.0`. -/
def doubleLayout : Decimal.Layout := ⟨.even, some (-5, 15), ".0"⟩

example : doubleLayout.write ⟨0x3ff0000000000000⟩ = "1.0" := by decide +kernel
example : doubleLayout.write ⟨0x3ee4f8b588e368f1⟩ = "0.00001" := by decide +kernel
example : doubleLayout.write ⟨0x4341c37937e08000⟩ = "1e+16" := by decide +kernel
example : doubleLayout.write ⟨0x8000000000000000⟩ = "-0.0" := by decide +kernel

namespace Number

def text : Number → String
  | .int i _ => toString i
  | .double x _ => doubleLayout.write x

/-- The number itself when it is a signed 64-bit whole number. -/
def toInt64? : Number → Option Int
  | .int i _ => if Bounds.fitsInt64 i then some i else none
  | .double _ _ => none

/-- The number itself when it is an unsigned 64-bit whole number. -/
def toUInt64? : Number → Option Nat
  | .int i _ => if 0 ≤ i then some i.toNat else none
  | .double _ _ => none

def toDouble : Number → Binary64
  | .int i _ => Binary64.ofInt i
  | .double x _ => x

/-- The whole number that a number is, in either form. -/
def whole? : Number → Option Int
  | .int i _ => some i
  | .double x _ => x.toInt?

/-- The number of a signed word. -/
def ofInt64 (i : Int64) : Number := .int i.toInt (by
  have low := i.le_toInt
  have high := i.toInt_lt
  rw [Bounds.minInt64, Bounds.maxUInt64]
  omega)

/-- The number of an unsigned word. -/
def ofUInt64 (n : UInt64) : Number := .int n.toNat (by
  have high := n.toNat_lt
  rw [Bounds.minInt64, Bounds.maxUInt64]
  omega)

/-- The number that a double is. One that is not finite is none. -/
def ofDouble? (x : Binary64) : Option Number :=
  if finite : x.isFinite = true then some (.double x finite) else none

/-- The parts of a written number. -/
structure Literal where
  negative : Bool
  whole : List Char
  fraction : Option (List Char)
  exponent : Option Int

/-- Appends digits to a number as long as it fits 64 bits; with the count of those left over. -/
def appendDigits (n : Nat) : List Char → Nat × Nat
  | [] => (n, 0)
  | c :: cs =>
    let more := 10 * n + (c.toNat - '0'.toNat)
    if more ≤ Bounds.maxUInt64 then appendDigits more cs else (n, cs.length + 1)

theorem appendDigits_le {n : Nat} (fits : n ≤ Bounds.maxUInt64) (cs : List Char) :
    (appendDigits n cs).1 ≤ Bounds.maxUInt64 := by
  induction cs generalizing n with
  | nil => exact fits
  | cons c cs ih =>
    rw [appendDigits]
    split
    · rename_i more
      exact ih more
    · exact fits

/-- The greatest exponent whose power of ten is a double. -/
def greatestPower : Nat := 308

/-- Divided by `10 ^ n`, in steps when that is no double. -/
def divideByPower (x : Binary64) (n : Nat) : Binary64 :=
  if n ≤ greatestPower then x.div (Binary64.powerOfTen n)
  else if x.isZero then x
  else divideByPower (x.div (Binary64.powerOfTen greatestPower)) (n - greatestPower)
termination_by n
decreasing_by simp only [greatestPower] at *; omega

/-- Times `10 ^ n`; nothing when that overflows. -/
def multiplyByPower (x : Binary64) (n : Nat) : Option Binary64 :=
  if n ≤ greatestPower then
    let y := x.mul (Binary64.powerOfTen n)
    if y.isFinite then some y else none
  else if x.isZero then some x
  else none

def scale (x : Binary64) : Int → Option Binary64
  | .ofNat n => multiplyByPower x n
  | .negSucc n => some (divideByPower x (n + 1))

/-- A whole number that was read into 64 bits, under its sign. Below the signed range it is a
double, and so is a lone `-0`. -/
def ofWhole? (negative : Bool) (n : Nat) (fits : n ≤ Bounds.maxUInt64) : Option Number :=
  if negative then
    if low : 0 < n ∧ Bounds.minInt64 ≤ -(n : Int) then some (.int (-n) ⟨low.2, by omega⟩)
    else ofDouble? (Binary64.ofNat n).neg
  else some (.int n ⟨by rw [Bounds.minInt64]; omega, Int.ofNat_le.mpr fits⟩)

/-- The value of a written number; none when it overflows. -/
def Literal.value (l : Literal) : Option Number :=
  let whole := appendDigits 0 l.whole
  if l.fraction.isNone && l.exponent.isNone && whole.2 == 0 then
    ofWhole? l.negative whole.1 (appendDigits_le (Nat.zero_le _) l.whole)
  else
    let fraction := l.fraction.getD []
    let (significand, unread) := appendDigits whole.1 fraction
    let exponent : Int := whole.2 - (fraction.length - unread : Nat) + l.exponent.getD 0
    (scale (Binary64.ofNat significand) exponent).bind fun x =>
      ofDouble? (if l.negative then x.neg else x)

/-- A whole part: one zero, or digits that start with none. -/
def scanWhole (cs : List Char) : Option (List Char × List Char) :=
  match cs.takeWhile Char.isDigit, cs.dropWhile Char.isDigit with
  | [], _ => none
  | ['0'], rest => some (['0'], rest)
  | '0' :: _, _ => none
  | ds, rest => some (ds, rest)

def scanFraction : List Char → Option (Option (List Char) × List Char)
  | '.' :: cs =>
    let ds := cs.takeWhile Char.isDigit
    if ds.isEmpty then none else some (some ds, cs.dropWhile Char.isDigit)
  | cs => some (none, cs)

def scanExponent : List Char → Option (Option Int × List Char)
  | [] => some (none, [])
  | c :: cs =>
    if c = 'e' || c = 'E' then
      let (negative, rest) := Decimal.takeSign cs
      let ds := rest.takeWhile Char.isDigit
      if ds.isEmpty then none
      else
        let n : Int := Decimal.natOfDigits ds
        some (some (if negative then -n else n), rest.dropWhile Char.isDigit)
    else some (none, c :: cs)

/-- A written number at the start of a text, and what follows it. -/
def scan (cs : List Char) : Option (Literal × List Char) := do
  let (negative, cs) := match cs with
    | '-' :: rest => (true, rest)
    | _ => (false, cs)
  let (whole, cs) ← scanWhole cs
  let (fraction, cs) ← scanFraction cs
  let (exponent, cs) ← scanExponent cs
  some (⟨negative, whole, fraction, exponent⟩, cs)

theorem length_dropWhile_le {α : Type} (p : α → Bool) (xs : List α) :
    (xs.dropWhile p).length ≤ xs.length :=
  (List.dropWhile_sublist p).length_le

theorem length_scanWhole {cs ds rest : List Char} (h : scanWhole cs = some (ds, rest)) :
    rest.length < cs.length := by
  have split := congrArg List.length (List.takeWhile_append_dropWhile (p := Char.isDigit) (l := cs))
  rw [List.length_append] at split
  unfold scanWhole at h
  split at h
  · simp at h
  · simp_all; omega
  · simp at h
  · rename_i hne _ _
    simp only [Option.some.injEq, Prod.mk.injEq] at h
    have := List.length_pos_iff.mpr hne
    rw [← h.2]; omega

theorem length_scanFraction {cs rest : List Char} {f : Option (List Char)}
    (h : scanFraction cs = some (f, rest)) : rest.length ≤ cs.length := by
  unfold scanFraction at h
  split at h
  · rename_i cs
    dsimp only at h
    split at h
    · simp at h
    · have := length_dropWhile_le Char.isDigit cs
      simp only [Option.some.injEq, Prod.mk.injEq] at h
      rw [← h.2, List.length_cons]; omega
  · simp_all

theorem length_scanExponent {cs rest : List Char} {e : Option Int}
    (h : scanExponent cs = some (e, rest)) : rest.length ≤ cs.length := by
  unfold scanExponent at h
  split at h
  · simp_all
  · rename_i c cs
    split at h
    · have h1 := Decimal.length_takeSign cs
      have h2 := length_dropWhile_le Char.isDigit (Decimal.takeSign cs).2
      dsimp only at h
      split at h
      · simp at h
      · simp only [Option.some.injEq, Prod.mk.injEq] at h
        rw [← h.2, List.length_cons]; omega
    · simp_all

/-- A written number takes at least one character. -/
theorem length_scan {cs rest : List Char} {l : Literal}
    (h : scan cs = some (l, rest)) : rest.length < cs.length := by
  simp only [scan, Option.bind_eq_bind, Option.bind_eq_some_iff, Prod.exists,
    Option.some.injEq, Prod.mk.injEq] at h
  obtain ⟨_, _, hw, _, _, hf, _, _, he, _, rfl⟩ := h
  have h1 := length_scanWhole hw
  have h2 := length_scanFraction hf
  have h3 := length_scanExponent he
  split at h1 <;> simp only [List.length_cons] at * <;> omega

end Number
end DocTable.Json
