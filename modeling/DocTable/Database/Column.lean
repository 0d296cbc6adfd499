import DocTable.Calendar
import DocTable.Decimal.Fixed
import DocTable.Row
import DocTable.SqlValue
import DocTable.Text.Utf8

/-!
# Columns of database results

A driver binds values of a few types of its own, and decodes a cell to the type that it is
asked for. The name under which a column's type is reported tells the kind of the column, and
each product decodes a kind to one type. A cell that cannot be decoded is null.
-/

namespace DocTable.Database
set_option autoImplicit false

/-- The servers that results are read from. -/
inductive Product where
  | postgres
  | mysql
  deriving DecidableEq, Repr

/-! ## Types of a driver -/

/-- The types of the values that a driver binds and decodes. -/
inductive DriverType where
  | bool
  | int16
  | int32
  | int64
  | uint64
  | single
  | double
  | decimal
  | text
  | bytes
  /-- A moment without a zone. -/
  | dateTime
  | utcDateTime
  | date
  | json
  deriving DecidableEq, Repr

/-- The values of a type. One of single precision is its word. -/
abbrev DriverType.Value : DriverType → Type
  | .bool => Bool
  | .int16 => Int16
  | .int32 => Int32
  | .int64 => Int64
  | .uint64 => UInt64
  | .single => UInt32
  | .double => Binary64
  | .decimal => Decimal.Fixed
  | .text => String
  | .bytes => List UInt8
  | .dateTime => Moment
  | .utcDateTime => Moment
  | .date => Date
  | .json => Json

/-- A double as JSON, which has none that is not finite. -/
def floatValue (x : Binary64) : Json := ((Json.Number.ofDouble? x).map Json.num).getD .null

/-- A value of a driver as JSON. -/
def DriverType.toJson : (type : DriverType) → type.Value → Json
  | .bool, b => .bool b
  | .int16, i => .num (.ofInt64 i.toInt64)
  | .int32, i => .num (.ofInt64 i.toInt64)
  | .int64, i => .num (.ofInt64 i)
  | .uint64, n => .num (.ofUInt64 n)
  | .single, w => floatValue (Binary64.ofSingle w)
  | .double, x => floatValue x
  | .decimal, d => floatValue d.toDouble
  | .text, s => .str s
  | .bytes, bs => .str (Text.Utf8.decodeLossy bs)
  | .dateTime, m => .str m.text
  | .utcDateTime, m => .str m.text
  | .date, d => .str d.text
  | .json, v => v

/-- A value with its type, none for NULL, as it is bound for a placeholder. -/
structure Bound where
  type : DriverType
  value : Option type.Value

/-- What is bound for a value. -/
def Bound.of : SqlValue → Bound
  | .null => ⟨.text, none⟩
  | .text s => ⟨.text, some s⟩
  | .integer i => ⟨.int64, some (Int64.ofInt i)⟩
  | .double x => ⟨.double, some x⟩
  | .boolean b => ⟨.bool, some b⟩

/-! ## Kinds of columns -/

/-- How a column is read. -/
inductive ColumnKind where
  | boolean
  | smallInt
  | int
  | bigInt
  | unsigned
  | real
  | double
  | decimal
  | text
  | bytes
  | timestamp
  | timestampTz
  | date
  | json
  | other
  deriving DecidableEq, Repr

namespace ColumnKind

def ofPostgres (name : String) : ColumnKind :=
  match name with
  | "BOOL" => .boolean
  | "INT2" => .smallInt
  | "INT4" => .int
  | "INT8" => .bigInt
  | "FLOAT4" => .real
  | "FLOAT8" => .double
  | "NUMERIC" => .decimal
  | "TEXT" | "VARCHAR" | "BPCHAR" | "CHAR" | "NAME" | "CITEXT" => .text
  | "BYTEA" => .bytes
  | "TIMESTAMP" => .timestamp
  | "TIMESTAMPTZ" => .timestampTz
  | "DATE" => .date
  | "JSON" | "JSONB" => .json
  | _ => .other

/-- Integers one digit wide are reported as `BOOLEAN`, and unsigned ones with a mark at the
end. -/
def ofMySql (name : String) : ColumnKind :=
  if " UNSIGNED".toList.isSuffixOf name.toList then .unsigned
  else
    match name with
    | "BOOLEAN" => .boolean
    | "TINYINT" | "SMALLINT" | "MEDIUMINT" | "INT" | "BIGINT" => .bigInt
    | "FLOAT" => .real
    | "DOUBLE" => .double
    | "DECIMAL" => .decimal
    | "CHAR" | "VARCHAR" | "TINYTEXT" | "TEXT" | "MEDIUMTEXT" | "LONGTEXT" | "ENUM" | "SET" => .text
    | "BINARY" | "VARBINARY" | "TINYBLOB" | "BLOB" | "MEDIUMBLOB" | "LONGBLOB" => .bytes
    | "DATETIME" => .timestamp
    | "TIMESTAMP" => .timestampTz
    | "DATE" => .date
    | "JSON" => .json
    | _ => .other

/-- The kind of a column whose type is reported under a name. -/
def of : Product → String → ColumnKind
  | .postgres => ofPostgres
  | .mysql => ofMySql

/-- The type that columns of a kind are decoded to. -/
def driverType : Product → ColumnKind → DriverType
  | _, .boolean => .bool
  | .postgres, .smallInt => .int16
  | .postgres, .int => .int32
  | .postgres, .bigInt | .postgres, .unsigned => .int64
  | .mysql, .smallInt | .mysql, .int | .mysql, .bigInt => .int64
  | .mysql, .unsigned => .uint64
  | _, .real => .single
  | _, .double => .double
  | _, .decimal => .decimal
  | _, .text | _, .other => .text
  | _, .bytes => .bytes
  | _, .timestamp => .dateTime
  | _, .timestampTz => .utcDateTime
  | _, .date => .date
  | _, .json => .json

end ColumnKind

/-! ## Rows -/

/-- What a driver decodes a cell to: for each type nothing when it cannot, and no value for
NULL. -/
abbrev Decoder := (type : DriverType) → Option (Option type.Value)

namespace Decoder

/-- A cell as JSON, decoded to a type. -/
def read (decode : Decoder) (type : DriverType) : Option (Option Json) :=
  (decode type).map fun value => value.map type.toJson

/-- The value of a column of a kind. From one product, text of a binary collation comes as
bytes. -/
def columnValue (decode : Decoder) (p : Product) (kind : ColumnKind) : Json :=
  let value := match p, kind with
    | .mysql, .text | .mysql, .other => (decode.read .text).or (decode.read .bytes)
    | _, _ => decode.read (kind.driverType p)
  value.join.getD .null

end Decoder

/-- A row as a driver has it: the names and types of its columns, and what it decodes of the
column of a name. -/
structure DriverRow where
  columns : List (String × String)
  get : String → Decoder

/-- The row of a result: of columns with one name it has one, at the place of the first. -/
def DriverRow.convert (p : Product) (row : DriverRow) : Row :=
  Json.Members.ofList (row.columns.map fun column =>
    (column.1, (row.get column.1).columnValue p (.of p column.2)))

end DocTable.Database
