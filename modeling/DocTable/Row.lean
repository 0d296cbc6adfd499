import DocTable.Bounds
import DocTable.Error
import DocTable.Text.Blank

/-!
# Rows of results

What a row says of its key and of a count, and rows put into the order of their
ids.
-/

namespace DocTable
set_option autoImplicit false

/-- A row of a result: its columns with their values. -/
abbrev Row := Json.Members

namespace Row

/-- The text of a row's key. -/
def idText? (row : Row) : Option String :=
  match Json.Members.get? Field.primaryKeyName row with
  | none => none
  | some (.str s) => some s
  | some v => some v.compact

/-- The count of a row: its column `count`, or else its first one. -/
def countValue? (row : Row) : Option Json :=
  (Json.Members.get? "count" row).or (row.head?.map Prod.snd)

/-- A value as a count. Fractions are cut off, and so is what is beyond 64 bits. -/
def count? : Json → Option Nat
  | .num (.int i _) => if i < 0 then none else some i.toNat
  | .num (.double x _) =>
    if x.isNegative && !x.isZero then none else some (min x.wholePart Bounds.maxUInt64)
  | .str s => Decimal.uint64? (Text.trim s)
  | _ => none

/-- The count that rows report. -/
def countOf (rows : List Row) : Except Error Nat :=
  match rows.head?.bind countValue? with
  | none => .error (.execution .noCountRow)
  | some v =>
    match count? v with
    | some n => .ok n
    | none => .error (.execution (.badCount v))

/-- Rows by their ids. -/
abbrev Keyed := List (String × Row)

namespace Keyed

def remove (t : Keyed) (id : String) : Keyed := t.filter fun entry => entry.1 != id

/-- Puts a row in the place of the one with its id. A row without a key is left out. -/
def insert (t : Keyed) (row : Row) : Keyed :=
  match row.idText? with
  | some id => (id, row) :: t.remove id
  | none => t

def ofRows (rows : List Row) : Keyed := rows.foldl insert []

/-- Takes out the rows of some ids, one after the other. -/
def take : Keyed → List String → List Row
  | _, [] => []
  | t, id :: ids =>
    match t.lookup id with
    | some row => row :: take (t.remove id) ids
    | none => take t ids

end Keyed

/-- The rows of some ids in their order. Every id needs a row of its own. -/
def inOrderOf (rows : List Row) (ids : List String) : Except Error (List Row) :=
  let found := (Keyed.ofRows rows).take ids
  if found.length = ids.length then .ok found
  else .error (.execution (.reselected found.length ids.length))

end Row

end DocTable
