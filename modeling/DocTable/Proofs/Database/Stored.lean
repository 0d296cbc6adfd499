import DocTable.Proofs.Coercion.Typed
import DocTable.Proofs.Database.Prepared

/-!
# Values through a column

Four tables meet in a column: what a field coerces, what is bound for it, the type that its
definition declares, and the type that its reported name is decoded to. With faithful drivers
they fit: each value that a field is given comes back as one JSON value from both products, and
that is coerced to the value again (`Field.stored_reads_back`).
-/

namespace DocTable
set_option autoImplicit false

open Database

/-! ## Types of columns -/

/-- The driver's type for the values of a column type. -/
def ColumnType.driverType : ColumnType → DriverType
  | .text | .blob => .text
  | .number => .int64
  | .double => .double
  | .boolean => .bool

namespace Database

variable {p : Product} {t : ColumnType} {x : SqlValue} {w : Json}

/-- The name under which a column of a type is reported. -/
def Product.columnName : Product → ColumnType → String
  | _, .text => "VARCHAR"
  | .postgres, .number => "INT8"
  | .postgres, .double => "FLOAT8"
  | .postgres, .boolean => "BOOL"
  | .postgres, .blob => "TEXT"
  | .mysql, .number => "BIGINT"
  | .mysql, .double => "DOUBLE"
  | .mysql, .boolean => "BOOLEAN"
  | .mysql, .blob => "LONGTEXT"

/-- The types that definitions declare are documented ones. -/
theorem Product.documents_columnType (p : Product) (f : Field) :
    p.Documents (p.backend.dialect.columnType f) (p.columnName f.type) f.type.driverType := by
  rw [Dialect.columnType]
  cases f.type with
  | text => cases p <;> exact .varchar f.textLength
  | number => cases p with
    | postgres => exact .int8
    | mysql => exact .bigint
  | double => cases p with
    | postgres => exact .float8
    | mysql => exact .double
  | boolean => cases p with
    | postgres => exact .bool
    | mysql => exact .boolean
  | blob => cases p with
    | postgres => exact .text
    | mysql => exact .longtext

/-- A column is decoded to the type of its values, by way of its name and its kind. -/
theorem driverType_columnName (p : Product) (t : ColumnType) :
    (ColumnKind.of p (p.columnName t)).driverType p = t.driverType := by
  cases p <;> cases t <;> rfl

/-! ## Values -/

theorem floatValue_of_finite {x : Binary64} (finite : x.isFinite = true) :
    floatValue x = .num (.double x finite) := by
  rw [floatValue, Json.Number.ofDouble?, dif_pos finite]
  rfl

theorem ofInt64_ofInt {i : Int} (fits : Bounds.fitsInt64 i = true)
    (stored : Bounds.minInt64 ≤ i ∧ i ≤ Bounds.maxUInt64) :
    Json.Number.ofInt64 (Int64.ofInt i) = .int i stored := by
  obtain ⟨low, high⟩ := Bounds.fitsInt64_iff.mp fits
  rw [Bounds.minInt64] at low
  rw [Bounds.maxInt64] at high
  have same : (Int64.ofInt i).toInt = i := Int64.toInt_ofInt_of_le (by omega) (by omega)
  simp only [Json.Number.ofInt64, same]

/-- A value of a column type is bound with its driver's type, where its JSON form is that of the
value. -/
theorem exists_bound (holds : t.Holds x) (form : x.IsJson w) (given : x ≠ .null) :
    ∃ value, Bound.of x = ⟨t.driverType, some value⟩ ∧ t.driverType.toJson value = w := by
  cases holds with
  | null => exact absurd rfl given
  | @text s | @blob s =>
    cases form
    exact ⟨s, rfl, rfl⟩
  | @number i fits =>
    cases form with
    | integer stored => exact ⟨Int64.ofInt i, rfl, congrArg Json.num (ofInt64_ofInt fits stored)⟩
  | @double d finite =>
    cases form
    exact ⟨d, rfl, floatValue_of_finite finite⟩
  | @boolean b =>
    cases form
    exact ⟨b, rfl, rfl⟩

/-! ## Reading -/

variable {decode : Decoder} {kind : ColumnKind}

/-- A column is what its kind's type reads. The bytes that one product may try afterwards are not
looked at. -/
theorem columnValue_of_read {v : Option Json}
    (read : decode.read (kind.driverType p) = some v) :
    decode.columnValue p kind = v.getD .null := by
  unfold Decoder.columnValue
  split
  · have text : decode.read .text = some v := read
    rw [text]
    rfl
  · have text : decode.read .text = some v := read
    rw [text]
    rfl
  · rw [read]
    rfl

theorem columnValue_of_some {type : DriverType} (same : kind.driverType p = type)
    {value : type.Value} (decoded : decode type = some (some value)) :
    decode.columnValue p kind = type.toJson value := by
  subst same
  refine columnValue_of_read (v := some ((kind.driverType p).toJson value)) ?_
  rw [Decoder.read, decoded]
  rfl

theorem columnValue_of_null (null : ∀ type, decode type = some none) :
    decode.columnValue p kind = .null := by
  refine columnValue_of_read (v := none) ?_
  rw [Decoder.read, null]
  rfl

namespace Driver.Faithful

variable {κ : Type} {d : Driver κ} {cell : κ}

/-- A column's cell is read by the kind of its documented name. -/
theorem read_eq (faithful : d.Faithful p) (f : Field) (cell : κ) :
    d.read p (p.backend.dialect.columnType f) cell =
      Decoder.columnValue (d.decode (p.columnName f.type) cell) p
        (.of p (p.columnName f.type)) := by
  rw [Driver.read, faithful.reported (p.documents_columnType f)]

/-- A cell that holds a value of its column's type is read as the value's JSON form. -/
theorem read_of_holds (faithful : d.Faithful p) {f : Field} (typed : f.type.Holds x)
    (form : x.IsJson w) (held : d.Holds (p.backend.dialect.columnType f) x cell) :
    d.read p (p.backend.dialect.columnType f) cell = w := by
  rw [faithful.read_eq]
  cases held with
  | null =>
    cases form
    exact columnValue_of_null (faithful.null _)
  | @bound _ type value _ sent kept =>
    have given : x ≠ .null := by
      rintro rfl
      cases sent
    obtain ⟨value, same, json⟩ := exists_bound typed form given
    cases same.symm.trans sent
    have decoded := faithful.kept (p.documents_columnType f) value cell kept
    exact (columnValue_of_some (driverType_columnName p f.type) decoded).trans json

/-- What is bound for a value of a column's type can be bound for the column. -/
theorem accepts_bound (faithful : d.Faithful p) {f : Field} (typed : f.type.Holds x)
    (given : x ≠ .null) :
    d.accepts (p.backend.dialect.columnType f) (Bound.of x).type = true := by
  obtain ⟨w, form⟩ := typed.exists_json
  obtain ⟨value, same, -⟩ := exists_bound typed form given
  rw [same]
  exact faithful.accepted (p.documents_columnType f)

end Driver.Faithful

/-- A column that refuses no value of its type has a cell for each of them. -/
theorem exists_holds {κ : Type} {d : Driver κ} {declared : String} (typed : t.Holds x)
    (keeps : ∀ value, ∃ cell, d.store declared t.driverType value = some cell) :
    ∃ cell, d.Holds declared x cell := by
  by_cases given : x = .null
  · subst given
    exact ⟨_, .null⟩
  · obtain ⟨w, form⟩ := typed.exists_json
    obtain ⟨value, bound, -⟩ := exists_bound typed form given
    obtain ⟨cell, kept⟩ := keeps value
    exact ⟨cell, .bound bound kept⟩

end Database

/-- **What is written is read back.** Assume of both products that the driver and the server are
faithful. Then every value that a field coerces is bound with a type that the field's column
accepts, and every cell that holds it is read as one and the same JSON value, which the field
coerces to the value that was written; it is null just when that is. There is such a cell unless
the server refuses values of the column's type. -/
theorem Field.stored_reads_back {κ : Product → Type} (d : ∀ p, Driver (κ p))
    (faithful : ∀ p, (d p).Faithful p) (f : Field) (v : Json) (x : SqlValue)
    (ok : f.coerce v = .ok x) :
    ∃ w : Json, f.coerce w = .ok x ∧ (w = .null ↔ x = .null) ∧
      ∀ p : Product,
        (x ≠ .null → (d p).accepts (p.backend.dialect.columnType f) (Bound.of x).type = true) ∧
        (∀ cell, (d p).Holds (p.backend.dialect.columnType f) x cell →
          (d p).read p (p.backend.dialect.columnType f) cell = w) ∧
        ((∀ value, ∃ cell, (d p).store (p.backend.dialect.columnType f) f.type.driverType value =
            some cell) →
          ∃ cell, (d p).Holds (p.backend.dialect.columnType f) x cell) := by
  have typed := ColumnType.holds_of_coerce ok
  obtain ⟨w, form⟩ := typed.exists_json
  refine ⟨w, ColumnType.coerce_json f.key typed form, form.eq_null_iff, fun p => ⟨?_, ?_, ?_⟩⟩
  · exact (faithful p).accepts_bound typed
  · exact fun cell => (faithful p).read_of_holds typed form
  · exact exists_holds typed

/-- A column of doubles. -/
def Database.price : Field := ⟨"price", "price", .double, false, false, false, none⟩

/-- The negative zero, given as a text, in the cells of both products. -/
theorem Field.stored_reads_back_negativeZero :
    (∀ p, (Prepared.driver p).Faithful p) ∧
    Database.price.coerce (.str " -0.0e7 ") = .ok (.double ⟨0x8000000000000000⟩) ∧
    ∃ w : Json, Database.price.coerce w = .ok (.double ⟨0x8000000000000000⟩) ∧ w ≠ .null ∧
      ∀ p : Product, ∃ cell,
        (Prepared.driver p).Holds (p.backend.dialect.columnType Database.price)
          (.double ⟨0x8000000000000000⟩) cell ∧
        (Prepared.driver p).read p (p.backend.dialect.columnType Database.price) cell = w := by
  have ok : Database.price.coerce (.str " -0.0e7 ") = .ok (.double ⟨0x8000000000000000⟩) := by
    decide +kernel
  obtain ⟨w, coerced, null, each⟩ :=
    stored_reads_back Prepared.driver Prepared.faithful_driver _ _ _ ok
  refine ⟨Prepared.faithful_driver, ok, w, coerced, ?_, fun p => ?_⟩
  · intro absent
    cases null.mp absent
  · have held : (Prepared.driver p).Holds (p.backend.dialect.columnType Database.price)
        (.double ⟨0x8000000000000000⟩) (.double ⟨0x8000000000000000⟩) := by
      refine .bound rfl ?_
      cases p <;> decide +kernel
    exact ⟨_, held, (each p).2.1 _ held⟩

end DocTable
