import DocTable.Coercion
import DocTable.Dialect.Basic
import DocTable.Row

/-!
# Values as literals

A value can be written as a literal of a dialect, and the texts of a row read
back from literals. Text that is no complete literal stays as it is.
-/

namespace DocTable.Dialect
set_option autoImplicit false

/-- A value as a literal of a field's type. -/
def encode (d : Dialect) (f : Field) (v : Json) : Except Error String :=
  match f.coerce v with
  | .ok value => .ok (d.literal value)
  | .error cause => .error (.validation (.coercion cause))

def decodeValue (d : Dialect) : Json → Json
  | .str s => .str (d.decodeText s)
  | v => v

def decodeRow (d : Dialect) (row : Row) : Row := row.map fun m => (m.1, d.decodeValue m.2)

def decodeRows (d : Dialect) (rows : List Row) : List Row := rows.map d.decodeRow

end DocTable.Dialect
