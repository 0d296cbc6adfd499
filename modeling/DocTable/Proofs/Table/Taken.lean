import DocTable.Proofs.Clause.Taken
import DocTable.Proofs.Condition.Taken
import DocTable.Table.Basic

/-!
# The operands that statements take

Every statement of a table takes the operands of its fragment, so the values that its session
has bound in the end are those of its placeholders, in the order of the text
(`Table.finish_of_takes`).
-/

namespace DocTable
set_option autoImplicit false
open Fragment (operands operands_append)

namespace Table

variable {t : Table}

/-- A draft that takes its operands is finished as its fragment is written. -/
theorem finish_of_takes {d : Draft Fragment} (takes : d.Takes operands) :
    t.finish d = d.outcome.map (Fragment.statement t.config.style) :=
  t.session.conclude_eq takes

/-! ## Clauses -/

theorem takes_columnList (names : List String) : (t.columnList names).Takes operands := by
  refine .checked fun columns selected => ?_
  cases columns with
  | none => rfl
  | some f => exact Clause.operands_select selected

theorem takes_whereClause (filter : Filter) : (t.whereClause filter).Takes operands := by
  refine .mapped (Condition.takes_ofMembers none filter.members) fun cs => ?_
  cases cs with
  | nil => rfl
  | cons c cs => exact Condition.operands_conjunction (c :: cs)

theorem operands_fallbackOrder {paged : Bool} {f : Fragment}
    (fallback : t.fallbackOrder paged = some f) : f.operands = [] := by
  unfold fallbackOrder at fallback
  split at fallback
  · cases fallback
    rfl
  · split at fallback
    · obtain ⟨s, -, rfl⟩ := Option.map_eq_some_iff.mp fallback
      rfl
    · cases fallback

theorem takes_orderClause (tokens : List String) (paged : Bool) :
    (t.orderClause tokens paged).Takes operands := by
  refine .checked fun order ordered => ?_
  cases chosen : order <|> t.fallbackOrder paged with
  | none => rfl
  | some f =>
    show f.operands = []
    cases order with
    | some terms =>
      cases chosen
      exact Clause.operands_orderBy ordered
    | none => exact operands_fallbackOrder chosen

theorem operands_pageClause (window : Option Clause.Window) :
    (t.pageClause window).operands = [] := by
  cases window <;> rfl

theorem operands_keyAmong (list : Fragment) : (keyAmong list).operands = list.operands := by
  show operands (Fragment.parenthesized list) = _
  exact Fragment.operands_parenthesized list

/-! ## Statements -/

theorem takes_countDraft (filter : Filter) : (t.countDraft filter).Takes operands :=
  .map (takes_whereClause filter) fun _ => rfl

theorem takes_listDraft (o : ListOptions) : (t.listDraft o).Takes operands := by
  intro f ok
  obtain ⟨columns, selected, ok⟩ := Draft.ok_bind.mp ok
  obtain ⟨condition, composed, ok⟩ := Draft.ok_bind.mp ok
  obtain ⟨order, ordered, rfl⟩ := Draft.ok_return.mp ok
  rw [listDraft, Draft.taken_bind selected, Draft.taken_bind composed, Draft.taken_bind ordered,
    takes_columnList _ _ selected, takes_whereClause _ _ composed, takes_orderClause _ _ _ ordered]
  simp [operands, operands_append, operands_pageClause]

theorem takes_findDraft (id : String) (select : List String) :
    (t.findDraft id select).Takes operands := by
  unfold findDraft
  split
  · exact .fail _
  · refine .both (takes_columnList select) (.take _) fun columns value => ?_
    simp [operands, operands_append]

theorem takes_insertDraft (records : List Record) : (t.insertDraft records).Takes operands :=
  .map (Clause.takes_insertion records) fun _ => rfl

theorem takes_selectByIdsDraft (ids : List String) : (t.selectByIdsDraft ids).Takes operands :=
  .map (Clause.takes_idValues ids) operands_keyAmong

theorem takes_updateDraft (ids : String) (record : Record) :
    (t.updateDraft ids record).Takes operands := by
  unfold updateDraft
  split
  · exact .fail _
  · refine .both (Clause.takes_assignments record) (Clause.takes_idValues _) fun sets list => ?_
    rw [operands_append, operands_keyAmong]
    rfl

theorem takes_deleteDraft (ids : String) : (t.deleteDraft ids).Takes operands :=
  .map (Clause.takes_idValues (Text.commaList ids)) operands_keyAmong

theorem listStatement_of_draft (o : ListOptions) :
    t.listStatement o = (t.listDraft o).outcome.map (Fragment.statement t.config.style) :=
  finish_of_takes (takes_listDraft o)

theorem findStatement_of_draft (id : String) (select : List String) :
    t.findStatement id select =
      (t.findDraft id select).outcome.map (Fragment.statement t.config.style) :=
  finish_of_takes (takes_findDraft id select)

theorem selectByIdsStatement_of_draft (ids : List String) :
    t.selectByIdsStatement ids =
      (t.selectByIdsDraft ids).outcome.map (Fragment.statement t.config.style) :=
  finish_of_takes (takes_selectByIdsDraft ids)

theorem updateStatement_of_draft (ids : String) (record : Record) :
    t.updateStatement ids record =
      (t.updateDraft ids record).outcome.map (Fragment.statement t.config.style) :=
  finish_of_takes (takes_updateDraft ids record)

theorem deleteStatement_of_draft (ids : String) :
    t.deleteStatement ids = (t.deleteDraft ids).outcome.map (Fragment.statement t.config.style) :=
  finish_of_takes (takes_deleteDraft ids)

end Table
end DocTable
