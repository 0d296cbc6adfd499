import DocTable.Proofs.Statement.InTurn
import DocTable.Proofs.Table.Request

/-!
# Statements clause by clause

A statement can be assembled from texts and clauses as they come (`Table.assemble`): each clause
is written into the session that the clauses before it have left. What has been assembled is at
every step a fragment as a whole would be written (`Assembly.clause_of`), so the statement is the
one of the whole draft (`assemble_eq`).
-/

namespace DocTable
set_option autoImplicit false
open Clause (Session)

/-- The text of a statement so far, and its session. -/
structure Assembly where
  sql : String
  session : Session

namespace Assembly

def text (a : Assembly) (s : String) : Assembly := { a with sql := a.sql ++ s }

def operand (a : Assembly) (v : SqlValue) : Assembly :=
  let (sql, session) := a.session.push v
  ⟨a.sql ++ sql, session⟩

/-- What the clause adds; its values are bound after those of the clauses before it. -/
def clause (a : Assembly) (d : Draft Fragment) : Except Error Assembly :=
  let (sql, session) := a.session.write d
  sql.map fun more => ⟨a.sql ++ more, session⟩

def finish (a : Assembly) : Statement := a.session.finish a.sql

/-- A fragment that has been assembled. -/
def of (style : Style) (f : Fragment) : Assembly := ⟨f.text style 0, ⟨style, f.bound style⟩⟩

variable {style : Style} {f g : Fragment} {s : String} {d : Draft Fragment}

theorem text_of (fixed : g.Fixed style s) : (of style f).text s = of style (f ++ g) := by
  rw [of, of, text, Fragment.text_append, fixed.text, Fragment.bound_append, fixed.bound,
    List.append_nil]

theorem operand_of (v : SqlValue) : (of style f).operand v = of style (f ++ [.operand v]) := by
  rw [operand, Session.push_eq]
  simp [of, Fragment.text_append, Fragment.text, Fragment.bound_eq_filter,
    Fragment.operands_append, Fragment.operands]

/-- What follows a clause goes on from the fragment with the clause at its end. -/
theorem clause_of {α : Type} (takes : d.Takes Fragment.operands)
    (next : Assembly → Except Error α) :
    ((of style f).clause d >>= next) = d.outcome >>= fun g => next (of style (f ++ g)) := by
  rw [clause]
  cases composed : d.outcome with
  | error e =>
    rw [Session.write, composed]
    rfl
  | ok g =>
    rw [Session.write_eq _ takes composed]
    show next _ = next _
    simp only [of, Fragment.text_append, Fragment.bound_append, Nat.zero_add]

theorem finish_of : (of style f).finish = f.statement style := rfl

end Assembly

theorem Draft.map_outcome_bind {α β γ : Type} (x : Draft α) (f : α → Draft β) (g : β → γ) :
    (x >>= f).outcome.map g = x.outcome >>= fun a => (f a).outcome.map g := by
  rw [outcome_bind]
  cases x.outcome <;> rfl

namespace Table

/-- The start of a text, with a session in which nothing is bound. -/
def begin (t : Table) (s : String) : Assembly := ⟨s, t.session⟩

def reference (t : Table) : String := t.config.dialect.quoteTable t.name

def keyName (t : Table) : String := t.config.dialect.quoteName Field.primaryKeyName

/-- The end of a statement whose rows are told by their ids. -/
def among (t : Table) (a : Assembly) (ids : List String) : Except Error Statement := do
  let a ← (a.text (" WHERE " ++ t.keyName ++ " IN (")).clause (Clause.idValues ids)
  return (a.text ")").finish

/-- The statement of a request from its clauses, one after the other. -/
def assemble (t : Table) : Request → Except Error Statement
  | .count filter => do
    let a ← (t.begin ("SELECT count(*) AS count FROM " ++ t.reference)).clause
      (t.whereClause filter)
    return a.finish
  | .list o => do
    let a ← (t.begin "SELECT ").clause (t.columnList o.select)
    let a ← (a.text (" FROM " ++ t.reference)).clause (t.whereClause o.filter)
    let window := Clause.window? o.count o.page t.config.defaultCount
    let a ← a.clause (t.orderClause o.sort window.isSome)
    return match window with
      | some w => (a.text (" " ++ w.text t.config.dialect)).finish
      | none => a.finish
  | .find id select =>
    if Text.isBlankText id then .error .noIdProvided
    else do
      let a ← (t.begin "SELECT ").clause (t.columnList select)
      let a := a.text (" FROM " ++ t.reference ++ " WHERE " ++ t.keyName ++ " = ")
      return (a.operand (.text (Text.trim id))).finish
  | .insert fresh records => do
    let a ← (t.begin ("INSERT INTO " ++ t.reference ++ " ")).clause
      (Clause.insertion t.registry t.config.policy (withIds records (idsOf fresh records)))
    return a.finish
  | .selectByIds ids => t.among (t.begin ("SELECT * FROM " ++ t.reference)) ids
  | .update ids record =>
    if (Text.commaList ids).isEmpty then .error .noIdProvided
    else do
      let a ← (t.begin ("UPDATE " ++ t.reference ++ " SET ")).clause
        (Clause.assignments t.registry t.config.policy record)
      t.among a (Text.commaList ids)
  | .delete ids => t.among (t.begin ("DELETE FROM " ++ t.reference)) (Text.commaList ids)

section Agreement

variable {t : Table} {f : Fragment} {s : String}

theorem begin_of (fixed : f.Fixed t.config.style s) : t.begin s = .of t.config.style f := by
  rw [begin, Assembly.of, fixed.text, fixed.bound]
  rfl

theorem fixed_reference (word : String) :
    Fragment.Fixed t.config.style [.word word, .table t.name] (word ++ t.reference) :=
  (Fragment.Fixed.word word).append (.table t.name)

theorem fixed_target (word next : String) :
    Fragment.Fixed t.config.style [.word word, .table t.name, .word next]
      (word ++ t.reference ++ next) :=
  (fixed_reference word).append (.word next)

/-- What stands before the id of a row. -/
theorem fixed_where :
    Fragment.Fixed t.config.style
      [.word " FROM ", .table t.name, .word " WHERE ", .column Field.primaryKeyName, .word " = "]
      (" FROM " ++ t.reference ++ " WHERE " ++ t.keyName ++ " = ") :=
  ((fixed_target " FROM " " WHERE ").append (.column Field.primaryKeyName)).append (.word " = ")

/-- What stands before the ids of a statement. -/
theorem fixed_among :
    Fragment.Fixed t.config.style
      [.word " WHERE ", .column Field.primaryKeyName, .word " IN ", .word "("]
      (" WHERE " ++ t.keyName ++ " IN (") := by
  have whole : " WHERE " ++ (t.keyName ++ (" IN " ++ "(")) = " WHERE " ++ t.keyName ++ " IN (" :=
    (String.append_assoc ..).symm
  rw [← whole]
  exact (Fragment.Fixed.word " WHERE ").append
    ((Fragment.Fixed.column _).append ((Fragment.Fixed.word " IN ").append (.word "(")))

theorem among_of (f : Fragment) (ids : List String) :
    t.among (.of t.config.style f) ids = do
      let list ← (Clause.idValues ids).outcome
      return (f ++ keyAmong list).statement t.config.style := by
  rw [among, Assembly.text_of fixed_among, Assembly.clause_of (Clause.takes_idValues ids)]
  refine bind_congr fun list => congrArg Except.ok ?_
  rw [Assembly.text_of (.word ")"), Assembly.finish_of]
  simp [keyAmong, Fragment.parenthesized]

/-- The clauses of a request make its statement. -/
theorem assemble_eq (t : Table) (q : Request) : t.assemble q = t.statementOf q := by
  rw [statementOf_eq, finish_of_takes (t.takes_draftOf q)]
  cases q with
  | count filter =>
    rw [assemble, begin_of (fixed_reference _), Assembly.clause_of (takes_whereClause filter),
      draftOf, countDraft, Draft.map_outcome_bind]
    rfl
  | list o =>
    rw [assemble, draftOf, listDraft, begin_of (.word "SELECT "),
      Assembly.clause_of (takes_columnList o.select), Draft.map_outcome_bind]
    refine bind_congr fun columns => ?_
    rw [Assembly.text_of (fixed_reference " FROM "),
      Assembly.clause_of (takes_whereClause o.filter), Draft.map_outcome_bind]
    refine bind_congr fun condition => ?_
    dsimp only
    rw [Assembly.clause_of (takes_orderClause o.sort _), Draft.map_outcome_bind]
    refine bind_congr fun order => congrArg Except.ok ?_
    cases Clause.window? o.count o.page t.config.defaultCount with
    | none => simp [Assembly.finish_of, pageClause]
    | some w => simp [Assembly.text_of (.word _), Assembly.finish_of, pageClause]
  | find id select =>
    rw [assemble, draftOf, findDraft]
    split
    · rfl
    rw [begin_of (.word "SELECT "), Assembly.clause_of (takes_columnList select),
      Draft.map_outcome_bind]
    refine bind_congr fun columns => congrArg Except.ok ?_
    rw [Assembly.text_of fixed_where, Assembly.operand_of, Assembly.finish_of]
    simp
  | insert fresh records =>
    rw [assemble, begin_of (fixed_target _ _), Assembly.clause_of (Clause.takes_insertion _),
      draftOf, insertDraft, Draft.map_outcome_bind]
    rfl
  | selectByIds ids =>
    rw [assemble, begin_of (fixed_reference _), among_of, draftOf, selectByIdsDraft,
      Draft.map_outcome_bind]
    rfl
  | update ids record =>
    rw [assemble, draftOf, updateDraft]
    split
    · rfl
    rw [begin_of (fixed_target _ _), Assembly.clause_of (Clause.takes_assignments record),
      Draft.map_outcome_bind]
    refine bind_congr fun sets => ?_
    rw [among_of, Draft.map_outcome_bind]
    rfl
  | delete ids =>
    rw [assemble, begin_of (fixed_reference _), among_of, draftOf, deleteDraft,
      Draft.map_outcome_bind]
    rfl

end Agreement
end Table
end DocTable
