import DocTable.Proofs.Clause.Columns
import DocTable.Proofs.Condition.Columns
import DocTable.Proofs.Table.Bound
import DocTable.Proofs.Table.Definition

/-!
# Statements and the columns of their table

Besides the table itself, a statement names columns that the table's definition has, in the
same quotes; what is inserted or assigned names each of them once (`mentions_defined`).
-/

namespace DocTable
set_option autoImplicit false

/-- The names of a statement: those of its table, and names of columns before and after. Where
columns are listed for values, they stand after the table, and none comes twice. -/
def Sql.NamesAround (table columns : List String) (listed : Bool) (names : List String) : Prop :=
  ∃ front back, names = front ++ table ++ back ∧ front ++ back ⊆ columns ∧
    (listed = true → front = [] ∧ back.Nodup)

/-- Whether a request lists columns for its values: as an insertion does, and as an update
assigns them, before it asks for the key. -/
def Request.lists : Request → Bool
  | .insert _ _ | .update _ _ => true
  | .count _ | .list _ | .find _ _ | .selectByIds _ | .delete _ => false

/-- The statement of a request names only columns that the table's definition has. -/
def Table.Mentions (t : Table) (q : Request) (s : Statement) : Prop :=
  Sql.NamesAround (t.config.dialect.quoteParts t.name) t.definition.columns q.lists
    (Sql.quotedNames t.config.dialect s.sql)

namespace Table

variable {t : Table} {f : Fragment}

/-! ## Clauses -/

section Clauses

variable (d : Dialect)

theorem names_columnList {names : List String} (ok : (t.columnList names).outcome = .ok f) :
    f.names d ⊆ t.registry.keys.map d.quoteName := by
  obtain ⟨chosen, selected, rfl⟩ := Draft.ok_map.mp ok
  cases chosen with
  | none => exact List.nil_subset _
  | some columns => exact Clause.names_select d selected

theorem names_key : [d.quoteName Field.primaryKeyName] ⊆ t.registry.keys.map d.quoteName :=
  List.map_subset _ (List.cons_subset.mpr ⟨List.mem_cons_self, List.nil_subset _⟩)

theorem names_fallbackOrder {paged : Bool} (ok : t.fallbackOrder paged = some f) :
    f.names d ⊆ t.registry.keys.map d.quoteName := by
  unfold fallbackOrder at ok
  split at ok
  · obtain rfl := Option.some.inj ok
    exact names_key d
  · split at ok
    · obtain ⟨s, -, rfl⟩ := Option.map_eq_some_iff.mp ok
      exact List.nil_subset _
    · cases ok

theorem names_orderClause {tokens : List String} {paged : Bool}
    (ok : (t.orderClause tokens paged).outcome = .ok f) :
    f.names d ⊆ t.registry.keys.map d.quoteName := by
  obtain ⟨order, ordered, rfl⟩ := Draft.ok_map.mp ok
  cases chosen : (order <|> t.fallbackOrder paged) with
  | none => exact List.nil_subset _
  | some terms =>
    show terms.names d ⊆ _
    cases order with
    | some o =>
      obtain rfl := Option.some.inj chosen
      exact Clause.names_orderBy d ordered
    | none => exact names_fallbackOrder d chosen

theorem names_whereClause {filter : Filter} (ok : (t.whereClause filter).outcome = .ok f) :
    f.names d ⊆ t.registry.keys.map d.quoteName := by
  obtain ⟨conditions, composed, rfl⟩ := Draft.ok_map.mp ok
  cases conditions with
  | nil => exact List.nil_subset _
  | cons c cs =>
    show (Fragment.separatedBy " AND " (Condition.fragments (c :: cs))).names d ⊆ _
    rw [Fragment.names_separatedBy, Condition.names_fragments]
    exact List.map_subset _ (Condition.columns_ofMembers composed)

@[simp] theorem names_pageClause (window : Option Clause.Window) :
    (t.pageClause window).names d = [] := by
  cases window <;> rfl

theorem names_keyAmong {ids : List String} {list : Fragment}
    (ok : (Clause.idValues ids).outcome = .ok list) :
    (keyAmong list).names d = [d.quoteName Field.primaryKeyName] := by
  rw [Clause.ok_idValues ok]
  simp [keyAmong]

end Clauses

/-! ## Requests -/

section Requests

variable (d : Dialect)

/-- The names of a fragment, around those of the table. -/
def Named (t : Table) (listed : Bool) (f : Fragment) : Prop :=
  Sql.NamesAround (d.quoteParts t.name) (t.registry.keys.map d.quoteName) listed (f.names d)

theorem named_countDraft {filter : Filter} (ok : (t.countDraft filter).outcome = .ok f) :
    Named d t false f := by
  obtain ⟨condition, composed, rfl⟩ := Draft.ok_return.mp ok
  exact ⟨[], condition.names d, by simp, names_whereClause d composed, nofun⟩

theorem named_listDraft {o : ListOptions} (ok : (t.listDraft o).outcome = .ok f) :
    Named d t false f := by
  obtain ⟨columns, selected, ok⟩ := Draft.ok_bind.mp ok
  obtain ⟨condition, composed, ok⟩ := Draft.ok_bind.mp ok
  obtain ⟨order, ordered, rfl⟩ := Draft.ok_return.mp ok
  refine ⟨columns.names d, condition.names d ++ order.names d, by simp, ?_, nofun⟩
  exact List.append_subset.mpr ⟨names_columnList d selected,
    List.append_subset.mpr ⟨names_whereClause d composed, names_orderClause d ordered⟩⟩

theorem named_findDraft {id : String} {select : List String}
    (ok : (t.findDraft id select).outcome = .ok f) : Named d t false f := by
  unfold findDraft at ok
  split at ok
  · cases ok
  obtain ⟨columns, selected, ok⟩ := Draft.ok_bind.mp ok
  obtain ⟨value, -, rfl⟩ := Draft.ok_return.mp ok
  exact ⟨columns.names d, [d.quoteName Field.primaryKeyName], by simp,
    List.append_subset.mpr ⟨names_columnList d selected, names_key d⟩, nofun⟩

theorem named_selectByIdsDraft {ids : List String}
    (ok : (t.selectByIdsDraft ids).outcome = .ok f) : Named d t false f := by
  obtain ⟨list, listed, rfl⟩ := Draft.ok_return.mp ok
  exact ⟨[], [d.quoteName Field.primaryKeyName], by simp [names_keyAmong d listed], names_key d,
    nofun⟩

theorem named_deleteDraft {ids : String} (ok : (t.deleteDraft ids).outcome = .ok f) :
    Named d t false f := by
  obtain ⟨list, listed, rfl⟩ := Draft.ok_return.mp ok
  exact ⟨[], [d.quoteName Field.primaryKeyName], by simp [names_keyAmong d listed], names_key d,
    nofun⟩

/-- The columns that records fill are columns of the table, in its order. -/
theorem named_insertDraft (distinct : t.registry.keys.Nodup) {records : List Record}
    (ok : (t.insertDraft records).outcome = .ok f) : Named d t true f := by
  obtain ⟨values, composed, rfl⟩ := Draft.ok_return.mp ok
  have used : ((Clause.usedColumns t.registry records).map Field.key).Sublist t.registry.keys :=
    List.filter_sublist.map Field.key
  have names := Clause.names_insertion d composed
  refine ⟨[], values.names d, by simp, ?_, fun _ => ⟨rfl, ?_⟩⟩
  · rw [names]
    exact List.map_subset _ used.subset
  · rw [names]
    exact (used.nodup distinct).map d.quoteName_injective

/-- The key that an update asks for is none of the columns that it assigns. -/
theorem named_updateDraft (unique : t.registry.keys.Nodup) {ids : String} {record : Record}
    (ok : (t.updateDraft ids record).outcome = .ok f) : Named d t true f := by
  unfold updateDraft at ok
  split at ok
  · cases ok
  obtain ⟨assignments, assigned, ok⟩ := Draft.ok_bind.mp ok
  obtain ⟨list, listed, rfl⟩ := Draft.ok_return.mp ok
  obtain ⟨keys, names, distinct, known, notKey⟩ := Clause.names_assignments d unique assigned
  have columns : keys ++ [Field.primaryKeyName] ⊆ t.registry.keys :=
    List.append_subset.mpr ⟨known, by simp [Registry.keys, Registry.fields, Field.primaryKey]⟩
  have once : (keys ++ [Field.primaryKeyName]).Nodup :=
    distinct.append (List.nodup_singleton _) (by simpa using notKey)
  exact ⟨[], (keys ++ [Field.primaryKeyName]).map d.quoteName,
    by simp [names_keyAmong d listed, names], List.map_subset _ columns,
    fun _ => ⟨rfl, once.map d.quoteName_injective⟩⟩

theorem named_draftOf (distinct : t.registry.keys.Nodup) {q : Request}
    (ok : (t.draftOf q).outcome = .ok f) : Named d t q.lists f := by
  cases q with
  | count filter => exact named_countDraft d ok
  | list o => exact named_listDraft d ok
  | find id select => exact named_findDraft d ok
  | insert fresh records => exact named_insertDraft d distinct ok
  | selectByIds ids => exact named_selectByIdsDraft d ok
  | update ids record => exact named_updateDraft d distinct ok
  | delete ids => exact named_deleteDraft d ok

end Requests

/-- **Only columns that are defined.** The text that creates a table defines one column for each
of its fields, and every statement of the table names these columns only, in the same quotes. -/
theorem mentions_defined {name : String} {schema : Json} {config : Config}
    (ok : ofSchema name schema config = .ok t) :
    t.Defines ∧ ∀ q s, t.statementOf q = .ok s → t.Mentions q s := by
  have defines := defines_of_ofSchema ok
  have distinct := (Registry.wellFormed_ofSchema (registry_of_ofSchema ok)).nodup
  refine ⟨defines, fun q s built => ?_⟩
  obtain ⟨f, composed, rfl⟩ := ok_statementOf built
  have carries := carries_draftOf (b := t.config.backend) composed
  have names : Sql.quotedNames t.config.dialect (f.statement t.config.style).sql =
      f.names t.config.dialect :=
    Fragment.quotedNames_text t.config.backend rfl carries.spaced 0
  rw [Mentions, names, defines.columns]
  exact named_draftOf t.config.dialect distinct composed

/-- Notes in a schema of their own, each with a text and the name of its author. -/
def authoredNotes : Table :=
  ⟨"app.notes",
    ⟨[⟨"text", "text", .text, false, false, true, none⟩,
      ⟨"author___name", "author.name", .text, false, false, false, some 20⟩]⟩,
    .of .mssql⟩

theorem mentions_defined_notes :
    let assigned : Request := .update "n1" ⟨[("author", .obj [("name", .str "Ada")]),
      ("_id", .str "n2"), ("text", .str "a [_id]")]⟩
    authoredNotes.Defines ∧
      authoredNotes.createTableStatement.sql = "IF OBJECT_ID(N'[app].[notes]', N'U') IS NULL " ++
        "CREATE TABLE [app].[notes] ([_id] NVARCHAR(64) PRIMARY KEY, " ++
        "[text] NVARCHAR(64) NOT NULL, [author___name] NVARCHAR(20))" ∧
      authoredNotes.Mentions assigned
        ⟨"UPDATE [app].[notes] SET [author___name] = @p1, [text] = @p2 WHERE [_id] IN (@p3)",
          [.text "Ada", .text "a [_id]", .text "n1"]⟩ := by
  intro assigned
  have built : ofSchema "app.notes" (.obj [("required", .arr [.str "text"]),
      ("properties", .obj [("text", .obj [("type", .str "string")]),
        ("author", .obj [("type", .str "object"), ("required", .arr []), ("properties", .obj [
          ("name", .obj [("type", .str "string"), ("maxLength", .num (.int 20))])])])])])
      (.of .mssql) = .ok authoredNotes := by
    decide +kernel
  obtain ⟨defines, mentions⟩ := mentions_defined built
  exact ⟨defines, by decide +kernel, mentions assigned _ (by decide +kernel)⟩

end Table
end DocTable
