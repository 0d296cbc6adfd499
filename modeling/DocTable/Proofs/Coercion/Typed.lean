import DocTable.Coercion
import DocTable.Proofs.Binary64.Nearest

/-!
# Values of a column's type

Coercion gives values of the column's type only: texts, whole numbers of 64 bits, finite
doubles and truth values, and null in every column (`ColumnType.holds_of_coerce`). Each of
them has a JSON form, which is coerced to that value again (`ColumnType.coerce_json`).
-/

namespace DocTable
set_option autoImplicit false

/-- The values of a type, and null. -/
inductive ColumnType.Holds : ColumnType → SqlValue → Prop where
  | null {t : ColumnType} : Holds t .null
  | text {s : String} : Holds .text (.text s)
  | blob {s : String} : Holds .blob (.text s)
  | number {i : Int} : Bounds.fitsInt64 i = true → Holds .number (.integer i)
  | double {x : Binary64} : x.isFinite = true → Holds .double (.double x)
  | boolean {b : Bool} : Holds .boolean (.boolean b)

/-- The JSON form of a value. -/
inductive SqlValue.IsJson : SqlValue → Json → Prop where
  | null : IsJson .null .null
  | text {s : String} : IsJson (.text s) (.str s)
  | integer {i : Int} (stored : Bounds.minInt64 ≤ i ∧ i ≤ Bounds.maxUInt64) :
      IsJson (.integer i) (.num (.int i stored))
  | double {x : Binary64} (finite : x.isFinite = true) :
      IsJson (.double x) (.num (.double x finite))
  | boolean {b : Bool} : IsJson (.boolean b) (.bool b)

theorem SqlValue.IsJson.eq_null_iff {x : SqlValue} {v : Json} (form : x.IsJson v) :
    v = .null ↔ x = .null := by
  cases form <;> simp

/-- Every value of a type has a JSON form. -/
theorem ColumnType.Holds.exists_json {t : ColumnType} {x : SqlValue} (holds : t.Holds x) :
    ∃ v, x.IsJson v := by
  cases holds with
  | null => exact ⟨_, .null⟩
  | text | blob => exact ⟨_, .text⟩
  | number fits => exact ⟨_, .integer (Bounds.stored_of_fits fits)⟩
  | double finite => exact ⟨_, .double finite⟩
  | boolean => exact ⟨_, .boolean⟩

/-! ## Numbers -/

theorem Json.Number.fits_of_integer? {n : Number} {i : Int} (read : n.integer? = some i) :
    Bounds.fitsInt64 i = true := by
  cases n with
  | int k _ =>
    obtain ⟨fits, ⟨⟩⟩ := Option.ite_none_right_eq_some.mp read
    exact fits
  | double x _ =>
    obtain ⟨_, within⟩ := Option.filter_eq_some_iff.mp read
    have bounded := of_decide_eq_true within
    rw [Bounds.fitsInt64_iff]
    simp only [Bounds.minInt64, Bounds.maxInt64] at bounded ⊢
    omega

/-- Every number has a finite double nearest to it. -/
theorem Json.Number.isFinite_toDouble (n : Number) : n.toDouble.isFinite = true := by
  cases n with
  | double x finite => exact finite
  | int i stored =>
    obtain ⟨low, high⟩ := stored
    rw [Bounds.minInt64] at low
    rw [Bounds.maxUInt64] at high
    exact Binary64.isFinite_ofInt (by omega)

theorem Decimal.fits_of_int64? {s : String} {i : Int} (read : int64? s = some i) :
    Bounds.fitsInt64 i = true := by
  obtain ⟨n, _, read⟩ := Option.bind_eq_some_iff.mp read
  obtain ⟨fits, ⟨⟩⟩ := Option.ite_none_right_eq_some.mp read
  exact fits

theorem Decimal.finite_of_toDouble? {negative : Bool} {d : Decimal} {x : Binary64}
    (read : toDouble? negative d = some x) : x.isFinite = true := by
  unfold toDouble? at read
  dsimp only at read
  split at read
  · obtain rfl := Option.some.inj read
    cases negative <;> decide +kernel
  split at read
  · cases read
  · obtain ⟨finite, ⟨⟩⟩ := Option.ite_none_right_eq_some.mp read
    exact finite

theorem Decimal.finite_of_double? {s : String} {x : Binary64} (read : double? s = some x) :
    x.isFinite = true := by
  unfold double? at read
  dsimp only at read
  split at read
  · exact finite_of_toDouble? read
  · cases read

/-! ## Coercion -/

namespace ColumnType

variable {t : ColumnType} {column : String} {x : SqlValue}

/-- A value that is read from something is made of what was read. -/
theorem read_of_ok {α ε : Type} {read : Option α} {refusal : ε} {make : α → SqlValue}
    (ok : (match read with
      | some a => Except.ok a
      | none => .error refusal).map make = .ok x) : ∃ a, read = some a ∧ make a = x := by
  cases read with
  | none => cases ok
  | some a => exact ⟨a, rfl, Except.ok.inj ok⟩

theorem holds_of_coerceNumber {n : Json.Number} (ok : t.coerceNumber column n = .ok x) :
    t.Holds x := by
  cases t with
  | text =>
    cases ok
    exact .text
  | blob =>
    cases ok
    exact .blob
  | number =>
    obtain ⟨i, read, rfl⟩ := read_of_ok ok
    exact .number (Json.Number.fits_of_integer? read)
  | double =>
    cases ok
    exact .double n.isFinite_toDouble
  | boolean =>
    obtain ⟨b, _, rfl⟩ := read_of_ok ok
    exact .boolean

theorem holds_of_coerceText {s : String} (ok : t.coerceText column s = .ok x) : t.Holds x := by
  cases t with
  | text =>
    cases ok
    exact .text
  | blob =>
    cases ok
    exact .blob
  | number =>
    rw [coerceText] at ok
    generalize found : Decimal.int64? (Text.trim s) = read at ok
    obtain ⟨i, rfl, rfl⟩ := read_of_ok ok
    exact .number (Decimal.fits_of_int64? found)
  | double =>
    rw [coerceText] at ok
    generalize found : Decimal.double? (Text.trim s) = read at ok
    obtain ⟨d, rfl, rfl⟩ := read_of_ok ok
    exact .double (Decimal.finite_of_double? found)
  | boolean =>
    obtain ⟨b, _, rfl⟩ := read_of_ok ok
    exact .boolean

theorem holds_of_coerceBool {b : Bool} (ok : t.coerceBool column b = .ok x) : t.Holds x := by
  cases t with
  | text =>
    cases ok
    exact .text
  | blob =>
    cases ok
    exact .blob
  | boolean =>
    cases ok
    exact .boolean
  | number | double => cases ok

/-- Coercion gives values of the type only. -/
theorem holds_of_coerce {v : Json} (ok : t.coerce column v = .ok x) : t.Holds x := by
  cases v with
  | null =>
    cases ok
    exact .null
  | num n => exact holds_of_coerceNumber ok
  | str s => exact holds_of_coerceText ok
  | bool b => exact holds_of_coerceBool ok
  | arr _ | obj _ => cases ok

/-- A value of the type is what its JSON form is coerced to. -/
theorem coerce_json (column : String) (holds : t.Holds x) {v : Json} (form : x.IsJson v) :
    t.coerce column v = .ok x := by
  cases holds with
  | null | text | blob | boolean | double =>
    cases form
    rfl
  | @number i fits =>
    cases form with
    | integer stored =>
      have read : (Json.Number.int i stored).integer? = some i := if_pos fits
      rw [coerce, coerceNumber, read]
      rfl

end ColumnType
end DocTable
