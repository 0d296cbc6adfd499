import DocTable.Proofs.Clause.Composed
import DocTable.Proofs.Table.Request

/-!
# Why requests are refused

Every statement is written from a composed draft (`composed_draftOf`). So a request that has no
statement has none by the client's fault (`statementOf_failsByClient`), and so has an insertion.
-/

namespace DocTable.Table
set_option autoImplicit false

variable {t : Table}

theorem composed_columnList (names : List String) : Draft.Composed (t.columnList names) :=
  (Draft.Composed.ofExcept (Clause.select_failsByClient names)).map _

theorem composed_whereClause (filter : Filter) : Draft.Composed (t.whereClause filter) :=
  (Condition.composed_ofMembers filter.members none).map _

theorem composed_orderClause (tokens : List String) (paged : Bool) :
    Draft.Composed (t.orderClause tokens paged) :=
  (Draft.Composed.ofExcept (Clause.orderBy_failsByClient tokens)).map _

theorem composed_insertDraft (records : List Record) : Draft.Composed (t.insertDraft records) :=
  (Clause.composed_insertion records).bind fun _ => .pure _

theorem composed_draftOf (q : Request) : Draft.Composed (t.draftOf q) := by
  cases q with
  | count filter => exact (composed_whereClause filter).bind fun _ => .pure _
  | list o =>
    exact (composed_columnList o.select).bind fun _ =>
      (composed_whereClause o.filter).bind fun _ =>
        (composed_orderClause o.sort _).bind fun _ => .pure _
  | find id select =>
    rw [draftOf, findDraft]
    split
    · exact .fail rfl
    · exact (composed_columnList select).bind fun _ => .bind (.text _) fun _ => .pure _
  | insert fresh records => exact composed_insertDraft _
  | selectByIds ids => exact (Clause.composed_idValues ids).bind fun _ => .pure _
  | update ids record =>
    rw [draftOf, updateDraft]
    split
    · exact .fail rfl
    · exact (Clause.composed_assignments record).bind fun _ =>
        (Clause.composed_idValues _).bind fun _ => .pure _
  | delete ids => exact (Clause.composed_idValues _).bind fun _ => .pure _

/-- A request is refused by the client's fault only. -/
theorem statementOf_failsByClient (t : Table) (q : Request) :
    FailsByClient (t.statementOf q) := by
  rw [statementOf_eq, finish_of_takes (t.takes_draftOf q)]
  exact (composed_draftOf q).failsByClient.map _

theorem insertStatement_failsByClient (t : Table) (fresh : Nat → String) (records : List Record) :
    FailsByClient (t.insertStatement fresh records) := by
  have statement := statementOf_failsByClient t (.insert fresh records)
  rw [statementOf_eq] at statement
  exact statement.bind fun _ => .ok _

end DocTable.Table
