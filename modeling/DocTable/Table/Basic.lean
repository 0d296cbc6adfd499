import DocTable.Clause.Ids
import DocTable.Clause.Session
import DocTable.Clause.Values
import DocTable.Condition.OfFilter
import DocTable.Config
import DocTable.ListOptions

/-!
# Tables and their statements

A table has a name, the columns of its schema, and a configuration. Each request
becomes one statement, or the reason why there is none.
-/

namespace DocTable
set_option autoImplicit false

structure Table where
  name : String
  registry : Registry
  config : Config
  deriving DecidableEq, Repr

namespace Table

/-- The table of a name and a schema. -/
def ofSchema (name : String) (schema : Json) (config : Config) : Except Error Table := do
  (Identifier.checkTable name).mapError .invalidIdentifier
  let registry ← (Registry.ofSchema schema).mapError .schema
  return ⟨name, registry, config⟩

/-- The session in which the clauses of a statement are composed. -/
def session (t : Table) : Clause.Session := .start t.config.dialect t.config.inline

def finish (t : Table) (d : Draft Fragment) : Except Error Statement := t.session.conclude d

def createTableStatement (t : Table) : Statement :=
  ⟨t.config.dialect.createTableFor t.name t.registry.fields, []⟩

/-! ## Clauses of a table -/

def columnList (t : Table) (names : List String) : Draft Fragment :=
  (fun columns => columns.getD [.word "*"]) <$>
    Draft.ofExcept (Clause.select t.registry t.config.policy names)

/-- The clause of a filter; nothing when it asks nothing. -/
def whereClause (t : Table) (filter : Filter) : Draft Fragment :=
  (fun conditions =>
    match Condition.conjunctionFragment conditions with
    | some f => .word " WHERE " :: f
    | none => []) <$> Condition.ofFilter t.registry t.config.policy filter

/-- The order of a list without sort: the configured one, or what a page needs. -/
def fallbackOrder (t : Table) (paged : Bool) : Option Fragment :=
  match t.config.defaultSort with
  | .primaryKeyAscending => some (Clause.SortTerm.fragment ⟨Field.primaryKey, .ascending⟩)
  | .unspecified => if paged then t.config.dialect.pageOrder.map fun s => [.word s] else none

def orderClause (t : Table) (tokens : List String) (paged : Bool) : Draft Fragment :=
  (fun order =>
    match order <|> t.fallbackOrder paged with
    | some f => .word " ORDER BY " :: f
    | none => []) <$> Draft.ofExcept (Clause.orderBy t.registry t.config.policy tokens)

def pageClause (t : Table) : Option Clause.Window → Fragment
  | some w => [.word (" " ++ w.text t.config.dialect)]
  | none => []

/-- The condition that a row's key is among some ids, after a list of them. -/
def keyAmong (list : Fragment) : Fragment :=
  [.word " WHERE ", .column Field.primaryKeyName, .word " IN "] ++ Fragment.parenthesized list

/-! ## Statements -/

def countDraft (t : Table) (filter : Filter) : Draft Fragment := do
  let condition ← t.whereClause filter
  return [.word "SELECT count(*) AS count FROM ", .table t.name] ++ condition

def countStatement (t : Table) (filter : Filter) : Except Error Statement :=
  t.finish (t.countDraft filter)

def listDraft (t : Table) (o : ListOptions) : Draft Fragment := do
  let columns ← t.columnList o.select
  let condition ← t.whereClause o.filter
  let window := Clause.window? o.count o.page t.config.defaultCount
  let order ← t.orderClause o.sort window.isSome
  return .word "SELECT " :: columns ++ [.word " FROM ", .table t.name] ++ condition ++ order ++
    t.pageClause window

def listStatement (t : Table) (o : ListOptions) : Except Error Statement :=
  t.finish (t.listDraft o)

def findDraft (t : Table) (id : String) (select : List String) : Draft Fragment :=
  if Text.isBlankText id then Draft.fail .noIdProvided
  else do
    let columns ← t.columnList select
    let value ← Draft.take (.text (Text.trim id))
    return .word "SELECT " :: columns ++ [.word " FROM ", .table t.name, .word " WHERE ",
      .column Field.primaryKeyName, .word " = ", .operand value]

def findStatement (t : Table) (id : String) (select : List String) : Except Error Statement :=
  t.finish (t.findDraft id select)

/-- The ids of records, in their order: a record's own, or a fresh one. -/
def idsOf (fresh : Nat → String) (records : List Record) : List String :=
  records.mapIdx fun i record => record.id?.getD (fresh i)

/-- Records that carry their ids. -/
def withIds (records : List Record) (ids : List String) : List Record :=
  records.zipWith Record.setId ids

/-- An insertion, with the ids of its records. -/
structure Insertion where
  statement : Statement
  ids : List String
  /-- The records as they are left: each with its id. -/
  records : List Record
  deriving DecidableEq, Repr

/-- The insertion of records that carry their ids. -/
def insertDraft (t : Table) (records : List Record) : Draft Fragment := do
  let values ← Clause.insertion t.registry t.config.policy records
  return [.word "INSERT INTO ", .table t.name, .word " "] ++ values

def insertStatement (t : Table) (fresh : Nat → String) (records : List Record) :
    Except Error Insertion := do
  let ids := idsOf fresh records
  let records := withIds records ids
  let statement ← t.finish (t.insertDraft records)
  return ⟨statement, ids, records⟩

def selectByIdsDraft (t : Table) (ids : List String) : Draft Fragment := do
  let list ← Clause.idValues ids
  return [.word "SELECT * FROM ", .table t.name] ++ keyAmong list

def selectByIdsStatement (t : Table) (ids : List String) : Except Error Statement :=
  t.finish (t.selectByIdsDraft ids)

/-- Ids are looked for before the record is read. -/
def updateDraft (t : Table) (ids : String) (record : Record) : Draft Fragment :=
  if (Text.commaList ids).isEmpty then Draft.fail .noIdProvided
  else do
    let assignments ← Clause.assignments t.registry t.config.policy record
    let list ← Clause.idList ids
    return [.word "UPDATE ", .table t.name, .word " SET "] ++ assignments ++ keyAmong list

def updateStatement (t : Table) (ids : String) (record : Record) : Except Error Statement :=
  t.finish (t.updateDraft ids record)

def deleteDraft (t : Table) (ids : String) : Draft Fragment := do
  let list ← Clause.idList ids
  return [.word "DELETE FROM ", .table t.name] ++ keyAmong list

def deleteStatement (t : Table) (ids : String) : Except Error Statement :=
  t.finish (t.deleteDraft ids)

end Table
end DocTable
