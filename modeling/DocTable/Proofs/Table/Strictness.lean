import DocTable.Proofs.Clause.Strictness
import DocTable.Proofs.Table.Request

/-!
# Strict tables

A table that refuses unknown names gives no statement that the lenient one would not give,
and fails where that one succeeds only by naming what is unknown (`strict_onlyRemoves`).
-/

namespace DocTable.Table
set_option autoImplicit false

/-- The table that refuses unknown names, or else passes them over. -/
def withStrict (t : Table) (strict : Bool) : Table :=
  { t with config := { t.config with strict } }

variable {t : Table}

theorem columnList_narrows (names : List String) :
    Draft.Narrows ((t.withStrict true).columnList names) ((t.withStrict false).columnList names) :=
  (Draft.Narrows.ofExcept (Clause.narrows_select names)).map _

theorem whereClause_narrows (filter : Filter) :
    Draft.Narrows ((t.withStrict true).whereClause filter)
      ((t.withStrict false).whereClause filter) :=
  (Condition.narrows_ofFilter filter).map _

theorem orderClause_narrows (tokens : List String) (paged : Bool) :
    Draft.Narrows ((t.withStrict true).orderClause tokens paged)
      ((t.withStrict false).orderClause tokens paged) :=
  (Draft.Narrows.ofExcept (Clause.narrows_orderBy tokens)).map _

theorem insertDraft_narrows (records : List Record) :
    Draft.Narrows ((t.withStrict true).insertDraft records)
      ((t.withStrict false).insertDraft records) :=
  (Clause.narrows_insertion records).bind fun _ => .refl _

theorem draftOf_narrows (t : Table) (q : Request) :
    Draft.Narrows ((t.withStrict true).draftOf q) ((t.withStrict false).draftOf q) := by
  cases q with
  | count filter => exact (whereClause_narrows filter).bind fun _ => .refl _
  | list o =>
    exact (columnList_narrows o.select).bind fun _ => (whereClause_narrows o.filter).bind fun _ =>
      (orderClause_narrows o.sort _).bind fun _ => .refl _
  | find id select =>
    rw [draftOf, draftOf, findDraft, findDraft]
    split
    · exact .refl _
    · exact (columnList_narrows select).bind fun _ => .refl _
  | insert fresh records => exact insertDraft_narrows _
  | selectByIds ids => exact .refl _
  | update ids record =>
    rw [draftOf, draftOf, updateDraft, updateDraft]
    split
    · exact .refl _
    · exact (Clause.narrows_assignments record).bind fun _ => .refl _
  | delete ids => exact .refl _

theorem finish_narrows {strict lenient : Draft Fragment} (h : strict.Narrows lenient) :
    Narrows ((t.withStrict true).finish strict) ((t.withStrict false).finish lenient) := by
  rcases h with rfl | ⟨name, refused⟩
  · exact .refl _
  · refine .inr ⟨name, ?_⟩
    rw [finish, Clause.Session.conclude, Clause.Session.write, refused]
    rfl

/-- **Strictness only takes results away.** The clauses of every session and the statements
of every request, insertions with their ids, are under the strict policy what they are under
the lenient one, or the refusal of an unknown name. -/
theorem strict_onlyRemoves (t : Table) (s : Clause.Session) :
    (∀ q : ClauseRequest, OnlyRemoves (s.composed (q.draft t.registry .reject))
      (s.composed (q.draft t.registry .ignore))) ∧
    (∀ q : Request, OnlyRemoves ((t.withStrict true).statementOf q)
      ((t.withStrict false).statementOf q)) ∧
    (∀ fresh records, OnlyRemoves ((t.withStrict true).insertStatement fresh records)
      ((t.withStrict false).insertStatement fresh records)) := by
  refine ⟨fun q => ?_, fun q => ?_, fun fresh records => ?_⟩
  · exact (s.composed_narrows (q.draft_narrows t.registry)).onlyRemoves
  · rw [statementOf_eq, statementOf_eq]
    exact (finish_narrows (draftOf_narrows t q)).onlyRemoves
  · have draft := insertDraft_narrows (t := t) (withIds records (idsOf fresh records))
    have statement := finish_narrows (t := t) draft
    exact (statement.bind fun _ => .refl _).onlyRemoves

end DocTable.Table
