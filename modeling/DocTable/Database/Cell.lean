import DocTable.Database.Column
import DocTable.Json.Parser

/-!
# Cells of prepared replies

A cell in the form in which a reply gives it, and what a driver decodes it to. A driver
decodes a column to a type when the name that it reports is one of the type's names.
-/

namespace DocTable.Database
set_option autoImplicit false

inductive Cell where
  | null
  | bool (b : Bool)
  | int (i : Int)
  /-- A word of single precision. -/
  | single (w : UInt32)
  | double (x : Binary64)
  /-- A decimal number as text. -/
  | numeric (s : String)
  | text (s : String)
  | bytes (bs : List UInt8)
  /-- Microseconds since 2000-01-01T00:00:00Z. -/
  | instant (micros : Int)
  /-- Days since 2000-01-01. -/
  | day (n : Int)
  /-- Year, month, day, hour, minute, second, microseconds; what is missing is zero. -/
  | civil (parts : List Int)
  deriving DecidableEq, Repr

/-- The names of the types whose columns a driver decodes to a type. -/
def DriverType.names : Product → DriverType → List String
  | .postgres, .bool => ["BOOL"]
  | .postgres, .int16 => ["INT2"]
  | .postgres, .int32 => ["INT4"]
  | .postgres, .int64 => ["INT8"]
  | .postgres, .uint64 => []
  | .postgres, .single => ["FLOAT4"]
  | .postgres, .double => ["FLOAT8"]
  | .postgres, .decimal => ["NUMERIC"]
  | .postgres, .text => ["TEXT", "VARCHAR", "BPCHAR", "CHAR", "NAME", "CITEXT", "UNKNOWN"]
  | .postgres, .bytes => ["BYTEA"]
  | .postgres, .dateTime => ["TIMESTAMP"]
  | .postgres, .utcDateTime => ["TIMESTAMPTZ"]
  | .postgres, .json => ["JSON", "JSONB"]
  | .mysql, .bool | .mysql, .int16 | .mysql, .int32 | .mysql, .int64 =>
    ["BOOLEAN", "TINYINT", "SMALLINT", "MEDIUMINT", "INT", "BIGINT"]
  | .mysql, .uint64 => ["TINYINT UNSIGNED", "SMALLINT UNSIGNED", "MEDIUMINT UNSIGNED",
      "INT UNSIGNED", "BIGINT UNSIGNED"]
  | .mysql, .single | .mysql, .double => ["FLOAT", "DOUBLE"]
  | .mysql, .decimal => ["DECIMAL"]
  | .mysql, .text => ["CHAR", "VARCHAR", "TINYTEXT", "TEXT", "MEDIUMTEXT", "LONGTEXT", "ENUM"]
  | .mysql, .bytes => ["CHAR", "VARCHAR", "TINYTEXT", "TEXT", "MEDIUMTEXT", "LONGTEXT", "ENUM",
      "BINARY", "VARBINARY", "TINYBLOB", "BLOB", "MEDIUMBLOB", "LONGBLOB"]
  | .mysql, .dateTime => ["DATETIME", "TIMESTAMP"]
  | .mysql, .utcDateTime => ["TIMESTAMP"]
  | .mysql, .json => ["JSON"]
  | _, .date => ["DATE"]

namespace Cell

def part (parts : List Int) (i : Nat) : Nat := ((parts[i]?).getD 0).toNat

def dateOf? (parts : List Int) : Option Date :=
  let date : Date := ⟨(parts[0]?).getD 0, part parts 1, part parts 2⟩
  if date.isValid then some date else none

def momentOf? (parts : List Int) : Option Moment :=
  let time : TimeOfDay := ⟨part parts 3, part parts 4, part parts 5, part parts 6⟩
  if time.isValid then (dateOf? parts).map fun date => ⟨date, time⟩ else none

/-- The value of a type that a cell has. -/
def value? : Cell → (type : DriverType) → Option type.Value
  | .bool b, .bool => some b
  | .int i, .bool => some (i != 0)
  | .int i, .int16 => some (Int16.ofInt i)
  | .int i, .int32 => some (Int32.ofInt i)
  | .int i, .int64 => some (Int64.ofInt i)
  | .int i, .uint64 => some (UInt64.ofNat i.toNat)
  | .single w, .single => some w
  | .double x, .double => some x
  | .numeric s, .decimal => Decimal.Fixed.ofText? s
  | .text s, .text => some s
  | .bytes bs, .text => Text.Utf8.decode? bs
  | .text s, .bytes => some s.toUTF8.toList
  | .bytes bs, .bytes => some bs
  | .instant micros, .dateTime | .instant micros, .utcDateTime => some (Moment.ofMicros micros)
  | .civil parts, .dateTime | .civil parts, .utcDateTime => momentOf? parts
  | .day n, .date => some (Date.ofDays n)
  | .civil parts, .date => dateOf? parts
  | .text s, .json => Json.parse? s
  | .bytes bs, .json => (Text.Utf8.decode? bs).bind Json.parse?
  | _, _ => none

/-- Decodes a cell of a column whose type is reported under a name. -/
def decode (p : Product) (name : String) (cell : Cell) : Decoder := fun type =>
  if cell = .null then some none
  else if (type.names p).contains name then (cell.value? type).map some
  else none

end Cell
end DocTable.Database
