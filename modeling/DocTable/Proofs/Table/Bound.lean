import DocTable.Proofs.Table.Insertion

/-!
# Placeholders and bound values

Every statement that binds its values carries those of its request
(`statementOf_carries`): the k-th placeholder and the k-th bound value belong to the same
value of the request, and to the same column.
-/

namespace DocTable
set_option autoImplicit false
open Fragment (Sited Follows Carries)
open Sql (Place)

variable {b : Backend} {t : Table} {f : Fragment}

/-- A select clause's columns and its table. -/
theorem Fragment.sited_select {columns : Fragment} (hc : Sited b columns []) (name : String) :
    Sited b (.word "SELECT " :: columns ++ [.word " FROM ", .table name]) [] :=
  (hc.word_cons (by decide) (by decide)).append_word (by decide)
    (.of_no_operands (.word_cons (by decide) (by decide) (.single rfl)) rfl)

namespace Table

theorem first_select (b : Backend) :
    Place.first (Sql.lexemes b.dialect "SELECT ".toList) = .beside "" := by
  cases b <;> decide

theorem carries_countDraft {filter : Filter} (ok : (t.countDraft filter).outcome = .ok f) :
    Carries b f (Request.ofFilter t.registry filter) := by
  obtain ⟨condition, composed, rfl⟩ := Draft.ok_return.mp ok
  have follows := follows_whereClause (b := b) composed
  have head : Sited b [.word "SELECT count(*) AS count FROM ", .table t.name] [] :=
    .of_no_operands (.word_cons (by decide) (by decide) (.single rfl)) rfl
  refine (head.append_clause follows).carries ?_ follows.fits
  cases b <;> decide

theorem carries_listDraft {o : ListOptions} (ok : (t.listDraft o).outcome = .ok f) :
    Carries b f (Request.ofFilter t.registry o.filter) := by
  obtain ⟨columns, selected, ok⟩ := Draft.ok_bind.mp ok
  obtain ⟨condition, composed, ok⟩ := Draft.ok_bind.mp ok
  obtain ⟨order, ordered, rfl⟩ := Draft.ok_return.mp ok
  have head := Fragment.sited_select (b := b) (sited_columnList selected) t.name
  have condition := follows_whereClause (b := b) composed
  have order := follows_orderClause (b := b) ordered
  have page := follows_pageClause (b := b) (t := t)
    (Clause.window? o.count o.page t.config.defaultCount)
  have all := ((head.append_clause condition).append_clause order).append_clause page
  rw [List.map_nil, List.append_nil, List.append_nil] at all
  exact all.carries (first_select b) condition.fits

theorem carries_findDraft {id : String} {select : List String}
    (ok : (t.findDraft id select).outcome = .ok f) :
    Carries b f [⟨Field.primaryKey, .str (Text.trim id)⟩] := by
  unfold findDraft at ok
  split at ok
  · cases ok
  obtain ⟨columns, selected, ok⟩ := Draft.ok_bind.mp ok
  obtain ⟨value, taken, rfl⟩ := Draft.ok_return.mp ok
  obtain rfl := Draft.ok_take.mp taken
  obtain ⟨fits, typed⟩ := Request.fits_id (Text.trim id)
  have site : Given.site ⟨Field.primaryKey, .str (Text.trim id)⟩ =
      (Field.primaryKeyName, .text (Text.trim id)) := by
    rw [← typed]
    rfl
  have fit : ∀ g ∈ [Given.mk Field.primaryKey (.str (Text.trim id))], g.Fits := by
    simpa using fits
  have key : Sited b [.column Field.primaryKeyName, .word " = ", .operand (.text (Text.trim id))]
      ([Given.mk Field.primaryKey (.str (Text.trim id))].map Given.site) := by
    rw [List.map_singleton, site]
    exact .operand (by decide) _ _
  have follows : Follows b (.word " WHERE " :: _) _ :=
    .word (key.word_cons (by decide) (by decide)) (by decide) fit
  have head := Fragment.sited_select (b := b) (sited_columnList selected) t.name
  have all := head.append_clause follows
  rw [List.cons_append, List.cons_append, List.append_assoc] at all
  exact all.carries (first_select b) fit

theorem carries_selectByIdsDraft {ids : List String}
    (ok : (t.selectByIdsDraft ids).outcome = .ok f) : Carries b f (Request.ofIds ids) := by
  obtain ⟨list, listed, rfl⟩ := Draft.ok_return.mp ok
  rw [Clause.ok_idValues listed]
  have follows := follows_keyAmong (b := b) ids
  have head : Sited b [.word "SELECT * FROM ", .table t.name] [] :=
    .of_no_operands (.word_cons (by decide) (by decide) (.single rfl)) rfl
  refine (head.append_clause follows).carries ?_ follows.fits
  cases b <;> decide

theorem carries_updateDraft {ids : String} {record : Record}
    (ok : (t.updateDraft ids record).outcome = .ok f) :
    Carries b f (record.flatten.filterMap (Request.ofLeaf t.registry) ++
      Request.ofIds (Text.commaList ids)) := by
  unfold updateDraft at ok
  split at ok
  · cases ok
  obtain ⟨assignments, assigned, ok⟩ := Draft.ok_bind.mp ok
  obtain ⟨list, listed, rfl⟩ := Draft.ok_return.mp ok
  rw [Clause.ok_idValues listed]
  have follows := follows_keyAmong (b := b) (Text.commaList ids)
  obtain ⟨sited, fits⟩ := Clause.sited_assignments (b := b) assigned
  have head : Sited b [.word "UPDATE ", .table t.name] [] :=
    .of_no_operands (.word_cons (by decide) (by decide) (.single rfl)) rfl
  have set := head.append_word (s := " SET ") (by decide) (sited.word_cons (by decide) (by decide))
  have all := set.append_clause follows
  rw [List.nil_append, ← List.map_append] at all
  refine all.carries ?_ ?_
  · cases b <;> decide
  · intro g hg
    rcases List.mem_append.mp hg with hg | hg
    · exact fits g hg
    · exact follows.fits g hg

theorem carries_deleteDraft {ids : String} (ok : (t.deleteDraft ids).outcome = .ok f) :
    Carries b f (Request.ofIds (Text.commaList ids)) := by
  obtain ⟨list, listed, rfl⟩ := Draft.ok_return.mp ok
  rw [Clause.ok_idValues listed]
  have follows := follows_keyAmong (b := b) (Text.commaList ids)
  have head : Sited b [.word "DELETE FROM ", .table t.name] [] :=
    .of_no_operands (.word_cons (by decide) (by decide) (.single rfl)) rfl
  refine (head.append_clause follows).carries ?_ follows.fits
  cases b <;> decide

theorem carries_draftOf {q : Request} (ok : (t.draftOf q).outcome = .ok f) :
    Carries b f (q.given t.registry) := by
  cases q with
  | count filter => exact carries_countDraft ok
  | list o => exact carries_listDraft ok
  | find id select => exact carries_findDraft ok
  | insert fresh records => exact carries_insertDraft ok
  | selectByIds ids => exact carries_selectByIdsDraft ok
  | update ids record => exact carries_updateDraft ok
  | delete ids => exact carries_deleteDraft ok

end Table

/-- **Placeholders and values.** A statement that binds its values carries those of its
request, each at its own column. -/
theorem Table.statementOf_carries (t : Table) (q : Request) {s : Statement}
    (bindsValues : t.config.inline = false) (ok : t.statementOf q = .ok s) :
    s.Carries t.config.dialect (q.given t.registry) := by
  obtain ⟨f, composed, rfl⟩ := ok_statementOf ok
  have carries := carries_draftOf (b := t.config.backend) composed
  have notInline : t.config.style.inline = false := t.config.style_inline.trans bindsValues
  exact carries.statement rfl notInline

/-- A table of users, with a text and a number. -/
def Table.users : Table :=
  ⟨"app.users",
    ⟨[⟨"name", "name", .text, false, false, false, none⟩,
      ⟨"address___floor", "address.floor", .number, false, false, false, none⟩]⟩,
    .of .mysql⟩

/-- A page of users, those on some floor or with some name. -/
def Request.usersPage : Request :=
  .list ⟨["name"], ["-name"], some 2, some 10,
    ⟨[("$or", .arr [.obj [("address", .obj [("floor", .arr [.num (.int 1), .null])])],
      .obj [("name", .obj [("$like", .str "A%")])]])]⟩, false⟩

theorem Table.statementOf_carries_page :
    Statement.Carries Table.users.config.dialect
      ⟨"SELECT `name` FROM `app`.`users` WHERE (`address___floor` IN (?, NULL)" ++
        " OR `name` LIKE ? ESCAPE '\\\\') ORDER BY `name` DESC LIMIT 10 OFFSET 10",
        [.integer 1, .text "A%"]⟩
      (Request.usersPage.given Table.users.registry) :=
  Table.users.statementOf_carries .usersPage rfl (by decide +kernel)

end DocTable
