import DocTable.Proofs.Coercion.Integers
import DocTable.Proofs.Decimal.Numeral

/-!
# What coercion keeps of a value

A value that is not null becomes one of the column's type, and stays what it was: a text, a
truth value, or the very number that it stands for (`ColumnType.keeps_of_coerce`). Null comes
of null only (`ColumnType.eq_null_iff`).
-/

namespace DocTable
set_option autoImplicit false

/-! ## Numbers -/

/-- The numbers that a value stands for: a number for its exact value, a text for the number that
it writes between blanks. -/
inductive Json.StandsFor : Json → ℚ → Prop where
  | num {n : Number} : StandsFor (.num n) n.value
  | str {s : String} {i : ℤ} : Decimal.Numeral (Text.trim s).toList i → StandsFor (.str s) i

theorem Json.StandsFor.unique {v : Json} {p q : ℚ} (hp : v.StandsFor p) (hq : v.StandsFor q) :
    p = q := by
  cases hp with
  | num =>
    cases hq with
    | num => rfl
  | str first =>
    cases hq with
    | str second => rw [first.unique second]

/-- A value of SQL other than the doubles that are no numbers. -/
def SqlValue.IsFinite : SqlValue → Prop
  | .double x => x.isFinite = true
  | _ => True

/-! ## Kinds of values -/

namespace ColumnType

variable {t : ColumnType} {column : String} {v : Json} {x : SqlValue}

theorem Holds.isFinite (holds : t.Holds x) : x.IsFinite := by
  cases holds with
  | double finite => exact finite
  | _ => trivial

theorem isFinite_of_coerce (ok : t.coerce column v = .ok x) : x.IsFinite :=
  (holds_of_coerce ok).isFinite

/-- What a column of a type makes of a value that is not null: for integers the one number that
the value stands for. -/
def Keeps : ColumnType → Json → SqlValue → Prop
  | .text, v, x | .blob, v, x => ∃ s, x = .text s ∧ ∀ given, v = .str given → s = given
  | .number, v, x => ∃ i : ℤ, x = .integer i ∧ Bounds.fitsInt64 i = true ∧
      ∀ q, v.StandsFor q ↔ q = i
  | .double, v, x => ∃ d, x = .double d ∧ d.isFinite = true ∧ ∀ n, v = .num n → d = n.toDouble
  | .boolean, v, x => ∃ b, x = .boolean b ∧ ∀ given, v = .bool given → b = given

theorem Keeps.ne_null (keeps : t.Keeps v x) : x ≠ .null := by
  rintro rfl
  cases t <;> obtain ⟨_, ⟨⟩, -⟩ := keeps

theorem keeps_integer {i : ℤ} (fits : Bounds.fitsInt64 i = true) (stands : v.StandsFor i) :
    ColumnType.number.Keeps v (.integer i) := by
  refine ⟨i, rfl, fits, fun q => ⟨fun other => other.unique stands, ?_⟩⟩
  rintro rfl
  exact stands

theorem keeps_of_coerceNumber {n : Json.Number} (ok : t.coerceNumber column n = .ok x) :
    t.Keeps (.num n) x := by
  cases t with
  | text | blob =>
    cases ok
    refine ⟨_, rfl, ?_⟩
    rintro _ ⟨⟩
  | number =>
    obtain ⟨i, read, rfl⟩ := read_of_ok ok
    have value := (Json.Number.integer?_eq_some_iff.mp read).1
    exact keeps_integer (Json.Number.fits_of_integer? read) (value ▸ .num)
  | double =>
    cases ok
    refine ⟨n.toDouble, rfl, n.isFinite_toDouble, ?_⟩
    rintro _ ⟨⟩
    rfl
  | boolean =>
    obtain ⟨b, -, rfl⟩ := read_of_ok ok
    refine ⟨b, rfl, ?_⟩
    rintro _ ⟨⟩

theorem keeps_of_coerceText {s : String} (ok : t.coerceText column s = .ok x) :
    t.Keeps (.str s) x := by
  cases t with
  | text | blob =>
    cases ok
    refine ⟨s, rfl, ?_⟩
    rintro given ⟨⟩
    rfl
  | number =>
    rw [coerceText] at ok
    generalize found : Decimal.int64? (Text.trim s) = read at ok
    obtain ⟨i, rfl, rfl⟩ := read_of_ok ok
    obtain ⟨numeral, fits⟩ := Decimal.int64?_eq_some_iff.mp found
    exact keeps_integer fits (.str numeral)
  | double =>
    rw [coerceText] at ok
    generalize found : Decimal.double? (Text.trim s) = read at ok
    obtain ⟨d, rfl, rfl⟩ := read_of_ok ok
    refine ⟨d, rfl, Decimal.finite_of_double? found, ?_⟩
    rintro _ ⟨⟩
  | boolean =>
    obtain ⟨b, -, rfl⟩ := read_of_ok ok
    refine ⟨b, rfl, ?_⟩
    rintro _ ⟨⟩

theorem keeps_of_coerceBool {b : Bool} (ok : t.coerceBool column b = .ok x) :
    t.Keeps (.bool b) x := by
  cases t with
  | text | blob =>
    cases ok
    refine ⟨_, rfl, ?_⟩
    rintro _ ⟨⟩
  | boolean =>
    cases ok
    refine ⟨b, rfl, ?_⟩
    rintro given ⟨⟩
    rfl
  | number | double => cases ok

/-- Coercion makes of a value what its column's type makes of it. -/
theorem keeps_of_coerce (ok : t.coerce column v = .ok x) (given : v ≠ .null) : t.Keeps v x := by
  cases v with
  | null => exact absurd rfl given
  | num n => exact keeps_of_coerceNumber ok
  | str s => exact keeps_of_coerceText ok
  | bool b => exact keeps_of_coerceBool ok
  | arr _ | obj _ => cases ok

/-- Null is what null becomes, and nothing else. -/
theorem eq_null_iff (ok : t.coerce column v = .ok x) : x = .null ↔ v = .null := by
  constructor
  · intro null
    by_contra given
    exact (keeps_of_coerce ok given).ne_null null
  · rintro rfl
    exact (Except.ok.inj ok).symm

end ColumnType
end DocTable
