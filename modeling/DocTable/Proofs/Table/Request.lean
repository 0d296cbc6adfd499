import DocTable.Proofs.Predicate.OfFilter
import DocTable.Proofs.Sql.Sites
import DocTable.Proofs.Table.Taken

/-!
# Requests and the values they give

A request for one statement of a table, and the values that it puts into the statement
from left to right, each meant for a field (`Request.given`). A statement carries them
when every value that is not null is bound to a placeholder beside its own column.
-/

namespace DocTable
set_option autoImplicit false

/-- Statements have literals for values exactly when their table is configured so: the dialect of
every backend has placeholders. -/
theorem Config.style_inline (c : Config) : c.style.inline = c.inline := by
  rw [style, Style.of, dialect]
  cases c.backend <;> exact Bool.or_false _

/-- A value in the type of its field, and the column of that field. -/
def Given.site (g : Given) : String × SqlValue := (g.field.key, g.typed)

/-- The values that are not null in the types of their fields. -/
def Given.present (given : List Given) : List Given := given.filter fun g => !g.typed.isNull

/-- What a table has a statement for. -/
inductive Request where
  | count (filter : Filter)
  | list (options : ListOptions)
  | find (id : String) (select : List String)
  | insert (fresh : Nat → String) (records : List Record)
  | selectByIds (ids : List String)
  | update (ids : String) (record : Record)
  | delete (ids : String)

namespace Request

/-- The values of a filter, as its predicates name them. -/
def ofFilter (r : Registry) (filter : Filter) : List Given :=
  (Predicate.sitesAll (Predicate.ofFilter r filter)).map Prod.snd

/-- The ids of a list, each a value of the key column. -/
def ofIds (ids : List String) : List Given :=
  (Clause.distinctIds ids).map fun id => ⟨Field.primaryKey, .str id⟩

/-- The values of a record, one for each column that it fills. -/
def ofRecord (r : Registry) (record : Record) : List Given :=
  r.fields.filterMap fun f => (Clause.cell? record f).map (Given.mk f)

/-- The value that a leaf of a record assigns. -/
def ofLeaf (r : Registry) (leaf : String × Json) : Option Given :=
  match r.get? leaf.1 with
  | some f => if f.isPrimaryKey then none else some ⟨f, leaf.2⟩
  | none => none

/-- The values of a request, in the order of its statement. -/
def given (r : Registry) : Request → List Given
  | .count filter => ofFilter r filter
  | .list options => ofFilter r options.filter
  | .find id _ => [⟨Field.primaryKey, .str (Text.trim id)⟩]
  | .insert fresh records =>
    (Table.withIds records (Table.idsOf fresh records)).flatMap (ofRecord r)
  | .selectByIds ids => ofIds ids
  | .update ids record =>
    record.flatten.filterMap (ofLeaf r) ++ ofIds (Text.commaList ids)
  | .delete ids => ofIds (Text.commaList ids)

end Request

namespace Table

/-- The statement of a request. -/
def statementOf (t : Table) : Request → Except Error Statement
  | .count filter => t.countStatement filter
  | .list options => t.listStatement options
  | .find id select => t.findStatement id select
  | .insert fresh records => (t.insertStatement fresh records).map Insertion.statement
  | .selectByIds ids => t.selectByIdsStatement ids
  | .update ids record => t.updateStatement ids record
  | .delete ids => t.deleteStatement ids

def draftOf (t : Table) : Request → Draft Fragment
  | .count filter => t.countDraft filter
  | .list options => t.listDraft options
  | .find id select => t.findDraft id select
  | .insert fresh records => t.insertDraft (withIds records (idsOf fresh records))
  | .selectByIds ids => t.selectByIdsDraft ids
  | .update ids record => t.updateDraft ids record
  | .delete ids => t.deleteDraft ids

/-- Every statement is a fragment that is written in the table's style. -/
theorem statementOf_eq (t : Table) (q : Request) : t.statementOf q = t.finish (t.draftOf q) := by
  cases q with
  | insert fresh records =>
    show (t.insertStatement fresh records).map Insertion.statement = t.finish _
    rw [insertStatement, draftOf]
    cases t.finish (t.insertDraft (withIds records (idsOf fresh records))) <;> rfl
  | _ => rfl

/-- What is taken for a request are the operands of its statement, in the order of the text. -/
theorem takes_draftOf (t : Table) (q : Request) : (t.draftOf q).Takes Fragment.operands := by
  cases q with
  | count filter => exact takes_countDraft filter
  | list options => exact takes_listDraft options
  | find id select => exact takes_findDraft id select
  | insert fresh records => exact takes_insertDraft _
  | selectByIds ids => exact takes_selectByIdsDraft ids
  | update ids record => exact takes_updateDraft ids record
  | delete ids => exact takes_deleteDraft ids

theorem ok_statementOf {t : Table} {q : Request} {s : Statement} (ok : t.statementOf q = .ok s) :
    ∃ f, (t.draftOf q).outcome = .ok f ∧ f.statement t.config.style = s := by
  rw [statementOf_eq, finish_of_takes (t.takes_draftOf q)] at ok
  cases composed : (t.draftOf q).outcome with
  | error e =>
    rw [composed] at ok
    cases ok
  | ok f =>
    rw [composed] at ok
    exact ⟨f, rfl, Except.ok.inj ok⟩

end Table

/-- A statement that binds given values: each has the type of its field, and the k-th of
those that are not null is bound to the k-th placeholder, which stands at its column. -/
structure Statement.Carries (d : Dialect) (s : Statement) (given : List Given) : Prop where
  fits : ∀ g ∈ given, g.Fits
  params : s.params = (Given.present given).map Given.typed
  notNull : SqlValue.null ∉ s.params
  placeholders : Sql.placeholders d s.sql =
    (List.range s.params.length).map fun k => d.placeholder (k + 1)
  sites : Sql.sites d s.sql =
    (Given.present given).mapIdx fun k g => (g.field.key, d.placeholder (k + 1))

end DocTable
