import DocTable.Clause.Names
import DocTable.Record
import DocTable.Statement.Draft

/-!
# Values of records

An insertion lists the columns that any of its records fills, and one row for
each record; a cell that a record leaves empty gets the column's default. An
assignment list sets what a partial record names, never the key.
-/

namespace DocTable.Clause
set_option autoImplicit false

/-- What a record puts into a column. -/
def cell? (record : Record) (f : Field) : Option Json :=
  (record.field? f).filter Json.isPresent

/-- Under a strict policy every leaf of a record has to be a column. -/
def checkNames (r : Registry) (policy : FieldPolicy) (record : Record) : Except Error Unit :=
  match policy with
  | .ignore => .ok ()
  | .reject =>
    match record.flatten.keys.find? fun key => (r.get? key).isNone with
    | some key => .error (.unknownField key)
    | none => .ok ()

/-- The values of a record at the places of their columns. A record has to fill a column beside
the key. -/
def readCells (r : Registry) (policy : FieldPolicy) (record : Record) :
    Except Error (List (Option Json)) := do
  checkNames r policy record
  let cells := r.fields.map (cell? record)
  if (r.fields.zip cells).any fun c => !c.1.isPrimaryKey && c.2.isSome then .ok cells
  else .error .noData

/-- Marks the places that cells fill, beside those that are marked. -/
def mark (used : List Bool) (cells : List (Option Json)) : List Bool :=
  used.zipWith (fun slot cell => slot || cell.isSome) cells

/-- The places that any of the records fills, beside those that are marked, and the cells of
each record. -/
def readRecords (r : Registry) (policy : FieldPolicy) :
    List Bool → List Record → Except Error (List Bool × List (List (Option Json)))
  | used, [] => .ok (used, [])
  | used, record :: records => do
    let cells ← readCells r policy record
    let (used, rows) ← readRecords r policy (mark used cells) records
    return (used, cells :: rows)

/-- The columns at the marked places, with their places. -/
def columnsAt (r : Registry) (used : List Bool) : List (Field × Nat) :=
  r.fields.zipIdx.filter fun c => used[c.2]?.getD false

def cellOf (f : Field) : Option Json → Draft Fragment
  | some v => do return [.operand (← Draft.takeFor f v)]
  | none => pure [.word "DEFAULT"]

def rowOf (columns : List (Field × Nat)) (cells : List (Option Json)) : Draft Fragment := do
  let values ← columns.mapM fun c => cellOf c.1 cells[c.2]?.join
  return Fragment.parenthesized (Fragment.commas values)

/-- A column list and rows, as they are written. -/
def columnsAndRows (columns : List Field) (rows : List Fragment) : Fragment :=
  Fragment.parenthesized (Fragment.commas (columns.map fun c => [.column c.key])) ++
    .word " VALUES " :: Fragment.commas rows

/-- Column list and rows of an insertion. -/
def insertion (r : Registry) (policy : FieldPolicy) (records : List Record) : Draft Fragment :=
  if records.isEmpty then Draft.fail .noData
  else do
    let (used, rows) ←
      Draft.ofExcept (readRecords r policy (List.replicate r.size false) records)
    let columns := columnsAt r used
    let rows ← rows.mapM (rowOf columns)
    return columnsAndRows (columns.map Prod.fst) rows

/-- What one leaf of a record assigns. -/
def assignment (r : Registry) (policy : FieldPolicy) (key : String) (v : Json) :
    Draft (List Fragment) :=
  match r.get? key with
  | none => Draft.ofExcept ((policy.unknown key).map fun _ => [])
  | some f =>
    if f.isPrimaryKey then pure []
    else do return [[.column f.key, .word " = ", .operand (← Draft.takeFor f v)]]

/-- The assignments of a partial record. -/
def assignments (r : Registry) (policy : FieldPolicy) (record : Record) : Draft Fragment := do
  let each ← record.flatten.mapM fun m => assignment r policy m.1 m.2
  if each.flatten.isEmpty then Draft.fail .noMatchingFields
  else return Fragment.commas each.flatten

end DocTable.Clause
