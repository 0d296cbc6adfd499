import DocTable.Executor.Basic
import DocTable.Table.Basic

/-!
# Operations on tables

Each operation runs one statement. A creation runs two: it inserts, and then
reads the rows back by their ids, in the order of the records.
-/

namespace DocTable
set_option autoImplicit false

/-- The answer to a list request. -/
inductive ListResponse where
  | rows (rows : List Row)
  | count (n : Nat)
  deriving DecidableEq, Repr

namespace Table

variable {σ : Type}

def createTable (t : Table) (e : Executor σ) : Operation σ Unit := do
  let _ ← e.affected t.createTableStatement
  return ()

def count (t : Table) (e : Executor σ) (filter : Filter) : Operation σ Nat := do
  let statement ← Operation.ofExcept (t.countStatement filter)
  let rows ← e.rows statement
  Operation.ofExcept (Row.countOf rows)

def list (t : Table) (e : Executor σ) (o : ListOptions) : Operation σ (List Row) := do
  let statement ← Operation.ofExcept (t.listStatement o)
  e.decodedRows statement

/-- The rows, or only their number when no more is asked for. -/
def listOrCount (t : Table) (e : Executor σ) (o : ListOptions) : Operation σ ListResponse :=
  if o.countOnly then ListResponse.count <$> t.count e o.filter
  else ListResponse.rows <$> t.list e o

def find (t : Table) (e : Executor σ) (id : String) (select : List String) :
    Operation σ (Option Row) := do
  let statement ← Operation.ofExcept (t.findStatement id select)
  let rows ← e.decodedRows statement
  return rows.head?

/-- Inserts records and reads them back, in their order. -/
def createMany (t : Table) (e : Executor σ) (fresh : Nat → String) (records : List Record) :
    Operation σ (List Row) := do
  let insertion ← Operation.ofExcept (t.insertStatement fresh records)
  let _ ← e.affected insertion.statement
  let select ← Operation.ofExcept (t.selectByIdsStatement insertion.ids)
  let rows ← e.decodedRows select
  Operation.ofExcept (Row.inOrderOf rows insertion.ids)

def create (t : Table) (e : Executor σ) (fresh : Nat → String) (record : Record) :
    Operation σ Row := do
  let rows ← t.createMany e fresh [record]
  Operation.ofExcept <|
    match rows.head? with
    | some row => .ok row
    | none => .error (.execution .insertedRowMissing)

def update (t : Table) (e : Executor σ) (ids : String) (record : Record) : Operation σ Nat := do
  let statement ← Operation.ofExcept (t.updateStatement ids record)
  e.affected statement

def deleteMany (t : Table) (e : Executor σ) (ids : String) : Operation σ Nat := do
  let statement ← Operation.ofExcept (t.deleteStatement ids)
  e.affected statement

/-- Deletes by one id, which may hold no comma. -/
def delete (t : Table) (e : Executor σ) (id : String) : Operation σ Nat :=
  if id.toList.contains ',' then
    Operation.ofExcept (.error (.validation (.notSingleId id)))
  else t.deleteMany e id

end Table
end DocTable
