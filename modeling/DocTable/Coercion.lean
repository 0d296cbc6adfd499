import DocTable.ColumnType
import DocTable.Json.Printer
import DocTable.SqlValue
import DocTable.Text.Blank

/-!
# Coercion of JSON values to columns

Null is null in every column. Number and boolean columns also read text, since
query strings carry nothing else. A value that is no value of the column is
refused, and never replaced by another one.
-/

namespace DocTable
set_option autoImplicit false

/-- Why a value does not fit its column. -/
inductive CoercionError where
  | notInteger (given column : String)
  | notNumber (given column : String)
  | notBoolean (given column : String)
  | mismatch (column : String) (expected : ColumnType) (value : Json)
  deriving DecidableEq, Repr

namespace CoercionError

private def cannotConvert (given target column : String) : String :=
  "Cannot convert '" ++ given ++ "' to " ++ target ++ " for '" ++ column ++ "'"

def message : CoercionError → String
  | .notInteger given column => cannotConvert given "integer" column
  | .notNumber given column => cannotConvert given "number" column
  | .notBoolean given column => cannotConvert given "boolean" column
  | .mismatch column expected value =>
    "Type mismatch for '" ++ column ++ "': expected " ++ expected.label ++ ", got " ++ value.compact

end CoercionError

namespace Json.Number

/-- The signed 64-bit number that a number is, in either form; as a double only strictly
between the ends of the range. -/
def integer? : Number → Option Int
  | .int i stored => (Number.int i stored).toInt64?
  | .double x _ => x.toInt?.filter fun i => decide (i.natAbs ≤ Bounds.maxInt64)

/-- Zero and one stand for false and true. -/
def boolean? (n : Number) : Option Bool :=
  match n.toInt64? with
  | some 0 => some false
  | some 1 => some true
  | _ => none

end Json.Number

/-- The words of a boolean column, in any case. -/
def booleanWord? (s : String) : Option Bool :=
  let word := (Text.trim s).map Char.toLower
  if ["true", "1", "yes"].contains word then some true
  else if ["false", "0", "no"].contains word then some false
  else none

namespace ColumnType

private def orRefuse {α : Type} (value : Option α) (refusal : CoercionError) :
    Except CoercionError α :=
  match value with
  | some a => .ok a
  | none => .error refusal

def coerceNumber (column : String) (n : Json.Number) : ColumnType → Except CoercionError SqlValue
  | .text | .blob => .ok (.text n.text)
  | .number => (orRefuse n.integer? (.notInteger n.text column)).map .integer
  | .double => .ok (.double n.toDouble)
  | .boolean => (orRefuse n.boolean? (.notBoolean n.text column)).map .boolean

def coerceText (column : String) (s : String) : ColumnType → Except CoercionError SqlValue
  | .text | .blob => .ok (.text s)
  | .number => (orRefuse (Decimal.int64? (Text.trim s)) (.notInteger s column)).map .integer
  | .double => (orRefuse (Decimal.double? (Text.trim s)) (.notNumber s column)).map .double
  | .boolean => (orRefuse (booleanWord? s) (.notBoolean s column)).map .boolean

def coerceBool (column : String) (b : Bool) : ColumnType → Except CoercionError SqlValue
  | .text | .blob => .ok (.text (if b then "true" else "false"))
  | .boolean => .ok (.boolean b)
  | t => .error (.mismatch column t (.bool b))

/-- A JSON value as a value of a column. -/
def coerce (t : ColumnType) (column : String) : Json → Except CoercionError SqlValue
  | .null => .ok .null
  | .num n => t.coerceNumber column n
  | .str s => t.coerceText column s
  | .bool b => t.coerceBool column b
  | .arr items => .error (.mismatch column t (.arr items))
  | .obj members => .error (.mismatch column t (.obj members))

end ColumnType

def Field.coerce (f : Field) (v : Json) : Except CoercionError SqlValue :=
  f.type.coerce f.key v

end DocTable
