import DocTable.Proofs.Clause.Skeleton
import DocTable.Proofs.Table.Bound

/-!
# Statements that bind their values

The text of a statement that binds its values depends on the skeleton of its request, and so
does the number of values (`text_of_skeleton`). What a client gives as a value is never read
as a part of the statement.
-/

namespace DocTable
set_option autoImplicit false

/-- What is left of a request without its values: names, operators, nesting, nulls, flags,
the page, the cells that are filled, and how many ids there are. -/
inductive Request.Skeleton where
  | count (filter : Json.Members)
  | list (select sort : List String) (page count : Option Int) (filter : Json.Members)
  | find (select : List String)
  | insert (filled : List (List Bool))
  | selectByIds (ids : Nat)
  | update (ids : Nat) (record : Json.Members)
  | delete (ids : Nat)
  deriving DecidableEq

namespace Request

/-- The ids of a list count once each. A row is inserted with its id. -/
def skeleton (r : Registry) : Request → Skeleton
  | .count filter => .count filter.skeleton
  | .list o => .list o.select o.sort o.page o.count o.filter.skeleton
  | .find _ select => .find select
  | .insert fresh records =>
    .insert ((Table.withIds records (Table.idsOf fresh records)).map (Clause.filled r))
  | .selectByIds ids => .selectByIds (Clause.distinctIds ids).length
  | .update ids record =>
    .update (Clause.distinctIds (Text.commaList ids)).length record.skeleton
  | .delete ids => .delete (Clause.distinctIds (Text.commaList ids)).length

end Request

theorem Config.inline_style {c : Config} (bindsValues : c.inline = false) :
    c.style.inline = false :=
  c.style_inline.trans bindsValues

namespace Table

variable {t : Table} {f g : Fragment}

theorem masked_whereClause {filter other : Filter} (same : filter.skeleton = other.skeleton)
    (ok : (t.whereClause filter).outcome = .ok f)
    (ok' : (t.whereClause other).outcome = .ok g) : f.masked = g.masked := by
  obtain ⟨cs, composed, rfl⟩ := Draft.ok_map.mp ok
  obtain ⟨ds, composed', rfl⟩ := Draft.ok_map.mp ok'
  have alike := Condition.masked_conditions same composed composed'
  cases cs with
  | nil =>
    cases ds with
    | nil => rfl
    | cons d ds => cases alike
  | cons c cs =>
    cases ds with
    | nil => cases alike
    | cons d ds =>
      show Piece.word " WHERE " :: Fragment.masked _ = Piece.word " WHERE " :: Fragment.masked _
      rw [Fragment.masked_separatedBy, Fragment.masked_separatedBy, alike]

theorem masked_keyAmong {list : Fragment} : (keyAmong list).masked = keyAmong list.masked := by
  rw [keyAmong, Fragment.masked_append, Fragment.masked_parenthesized]
  rfl

theorem masked_countDraft {filter other : Filter} (same : filter.skeleton = other.skeleton)
    (ok : (t.countDraft filter).outcome = .ok f) (ok' : (t.countDraft other).outcome = .ok g) :
    f.masked = g.masked := by
  obtain ⟨condition, composed, rfl⟩ := Draft.ok_return.mp ok
  obtain ⟨condition', composed', rfl⟩ := Draft.ok_return.mp ok'
  rw [Fragment.masked_append, Fragment.masked_append, masked_whereClause same composed composed']

/-- The columns, the order and the page are the same: no value takes part in them. -/
theorem masked_listDraft {o other : ListOptions} (select : o.select = other.select)
    (sort : o.sort = other.sort) (page : o.page = other.page) (count : o.count = other.count)
    (same : o.filter.skeleton = other.filter.skeleton)
    (ok : (t.listDraft o).outcome = .ok f) (ok' : (t.listDraft other).outcome = .ok g) :
    f.masked = g.masked := by
  unfold listDraft at ok ok'
  rw [← select, ← sort, ← page, ← count] at ok'
  obtain ⟨columns, selected, ok⟩ := Draft.ok_bind.mp ok
  obtain ⟨condition, composed, ok⟩ := Draft.ok_bind.mp ok
  obtain ⟨order, ordered, rfl⟩ := Draft.ok_return.mp ok
  obtain ⟨columns', selected', ok'⟩ := Draft.ok_bind.mp ok'
  obtain ⟨condition', composed', ok'⟩ := Draft.ok_bind.mp ok'
  obtain ⟨order', ordered', rfl⟩ := Draft.ok_return.mp ok'
  obtain rfl : columns = columns' := Except.ok.inj (selected.symm.trans selected')
  obtain rfl : order = order' := Except.ok.inj (ordered.symm.trans ordered')
  have conditions := masked_whereClause same composed composed'
  simp only [Fragment.masked_append, Fragment.masked_cons, conditions]

theorem masked_findDraft {id other : String} {select : List String}
    (ok : (t.findDraft id select).outcome = .ok f)
    (ok' : (t.findDraft other select).outcome = .ok g) : f.masked = g.masked := by
  unfold findDraft at ok ok'
  split at ok
  · cases ok
  split at ok'
  · cases ok'
  obtain ⟨columns, selected, ok⟩ := Draft.ok_bind.mp ok
  obtain ⟨value, taken, rfl⟩ := Draft.ok_return.mp ok
  obtain ⟨columns', selected', ok'⟩ := Draft.ok_bind.mp ok'
  obtain ⟨value', taken', rfl⟩ := Draft.ok_return.mp ok'
  obtain rfl : columns = columns' := Except.ok.inj (selected.symm.trans selected')
  obtain rfl := Draft.ok_take.mp taken
  obtain rfl := Draft.ok_take.mp taken'
  rw [Fragment.masked_append, Fragment.masked_append]
  rfl

theorem masked_insertDraft {records others : List Record}
    (same : records.map (Clause.filled t.registry) = others.map (Clause.filled t.registry))
    (ok : (t.insertDraft records).outcome = .ok f)
    (ok' : (t.insertDraft others).outcome = .ok g) : f.masked = g.masked := by
  obtain ⟨values, composed, rfl⟩ := Draft.ok_return.mp ok
  obtain ⟨values', composed', rfl⟩ := Draft.ok_return.mp ok'
  rw [Fragment.masked_append, Fragment.masked_append,
    Clause.masked_insertion same composed composed']

theorem masked_selectByIdsDraft {ids others : List String}
    (same : (Clause.distinctIds ids).length = (Clause.distinctIds others).length)
    (ok : (t.selectByIdsDraft ids).outcome = .ok f)
    (ok' : (t.selectByIdsDraft others).outcome = .ok g) : f.masked = g.masked := by
  obtain ⟨list, listed, rfl⟩ := Draft.ok_return.mp ok
  obtain ⟨list', listed', rfl⟩ := Draft.ok_return.mp ok'
  rw [Fragment.masked_append, Fragment.masked_append, masked_keyAmong, masked_keyAmong,
    Clause.masked_idValues same listed listed']

section
variable {ids others : String}
  (same : (Clause.distinctIds (Text.commaList ids)).length =
    (Clause.distinctIds (Text.commaList others)).length)
include same

theorem masked_updateDraft {record other : Record} (alike : record.skeleton = other.skeleton)
    (ok : (t.updateDraft ids record).outcome = .ok f)
    (ok' : (t.updateDraft others other).outcome = .ok g) : f.masked = g.masked := by
  unfold updateDraft at ok ok'
  split at ok
  · cases ok
  split at ok'
  · cases ok'
  obtain ⟨assignments, assigned, ok⟩ := Draft.ok_bind.mp ok
  obtain ⟨list, listed, rfl⟩ := Draft.ok_return.mp ok
  obtain ⟨assignments', assigned', ok'⟩ := Draft.ok_bind.mp ok'
  obtain ⟨list', listed', rfl⟩ := Draft.ok_return.mp ok'
  simp only [Fragment.masked_append, masked_keyAmong]
  rw [Clause.masked_assignments alike assigned assigned',
    Clause.masked_idValues same listed listed']

theorem masked_deleteDraft (ok : (t.deleteDraft ids).outcome = .ok f)
    (ok' : (t.deleteDraft others).outcome = .ok g) : f.masked = g.masked := by
  obtain ⟨list, listed, rfl⟩ := Draft.ok_return.mp ok
  obtain ⟨list', listed', rfl⟩ := Draft.ok_return.mp ok'
  rw [Fragment.masked_append, Fragment.masked_append, masked_keyAmong, masked_keyAmong,
    Clause.masked_idValues same listed listed']

end

/-- Requests with one skeleton are composed alike. -/
theorem masked_draftOf {q other : Request}
    (same : q.skeleton t.registry = other.skeleton t.registry)
    (ok : (t.draftOf q).outcome = .ok f) (ok' : (t.draftOf other).outcome = .ok g) :
    f.masked = g.masked := by
  cases q with
  | count filter =>
    cases other with
    | count other => exact masked_countDraft (Request.Skeleton.count.inj same) ok ok'
    | _ => cases same
  | list o =>
    cases other with
    | list other =>
      obtain ⟨select, sort, page, count, filter⟩ := Request.Skeleton.list.inj same
      exact masked_listDraft select sort page count filter ok ok'
    | _ => cases same
  | find id select =>
    cases other with
    | find other select' =>
      obtain rfl := Request.Skeleton.find.inj same
      exact masked_findDraft ok ok'
    | _ => cases same
  | insert fresh records =>
    cases other with
    | insert _ _ => exact masked_insertDraft (Request.Skeleton.insert.inj same) ok ok'
    | _ => cases same
  | selectByIds ids =>
    cases other with
    | selectByIds _ =>
      exact masked_selectByIdsDraft (Request.Skeleton.selectByIds.inj same) ok ok'
    | _ => cases same
  | update ids record =>
    cases other with
    | update _ _ =>
      obtain ⟨ids, record⟩ := Request.Skeleton.update.inj same
      exact masked_updateDraft ids record ok ok'
    | _ => cases same
  | delete ids =>
    cases other with
    | delete _ => exact masked_deleteDraft (Request.Skeleton.delete.inj same) ok ok'
    | _ => cases same

/-- **Values leave no trace in the text.** Two requests that differ in their values only,
whichever they are, are one text with as many values to bind. -/
theorem text_of_skeleton (t : Table) (bindsValues : t.config.inline = false)
    {q other : Request} (same : q.skeleton t.registry = other.skeleton t.registry)
    {s s' : Statement} (ok : t.statementOf q = .ok s) (ok' : t.statementOf other = .ok s') :
    s.sql = s'.sql ∧ s.params.length = s'.params.length := by
  obtain ⟨f, composed, rfl⟩ := ok_statementOf ok
  obtain ⟨g, composed', rfl⟩ := ok_statementOf ok'
  have notInline := Config.inline_style bindsValues
  exact Fragment.statement_of_masked notInline (masked_draftOf same composed composed')

/-- The page of users with other values, one of them a text of SQL. -/
theorem text_of_usersPage :
    let other : Request :=
      .list ⟨["name"], ["-name"], some 2, some 10,
        ⟨[("$or", .arr [.obj [("address", .obj [("floor", .arr [.str "7", .null])])],
          .obj [("name", .obj [("$like", .str "' OR 1=1 --")])]])]⟩, false⟩
    ∃ s s', users.statementOf .usersPage = .ok s ∧ users.statementOf other = .ok s' ∧
      s'.params = [.integer 7, .text "' OR 1=1 --"] ∧
      s.sql = s'.sql ∧ s.params.length = s'.params.length := by
  intro other
  let sql := "SELECT `name` FROM `app`.`users` WHERE (`address___floor` IN (?, NULL)" ++
    " OR `name` LIKE ? ESCAPE '\\\\') ORDER BY `name` DESC LIMIT 10 OFFSET 10"
  have ok : users.statementOf .usersPage = .ok ⟨sql, [.integer 1, .text "A%"]⟩ := by
    decide +kernel
  have ok' : users.statementOf other = .ok ⟨sql, [.integer 7, .text "' OR 1=1 --"]⟩ := by
    decide +kernel
  have same : Request.usersPage.skeleton users.registry = other.skeleton users.registry := by
    decide +kernel
  exact ⟨_, _, ok, ok', rfl, text_of_skeleton users rfl same ok ok'⟩

end Table
end DocTable
