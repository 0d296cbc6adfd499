import DocTable.Proofs.Distinct.FirstOccurrences
import DocTable.Proofs.Table.Addressed
import DocTable.Proofs.Table.Insertion

/-!
# The ids of an insertion

Every record of an insertion is given one id. The insertion writes that id, the select by the
ids asks for it, and a second insertion of the same records gives it again
(`insertStatement_assigned`), so nothing that has been stored is lost for its id. Fresh ids are
taken to be ids, as the generated ones are (`IsId.of_isUuid`).
-/

namespace DocTable
set_option autoImplicit false

theorem Json.Members.set_set (key : String) (v w : Json) (ms : Members) :
    set key v (set key w ms) = set key v ms := by
  induction ms with
  | nil => simp [set]
  | cons m ms ih =>
    obtain ⟨name, u⟩ := m
    by_cases same : name = key <;> simp [set, same, ih]

theorem Record.setId_setId (record : Record) (first id : String) :
    (record.setId first).setId id = record.setId id := by
  rw [setId, setId, set, set, Json.Members.set_set]
  rfl

namespace IsId

variable {id : String}

/-- A record keeps the id that it has been given. -/
theorem id?_setId (h : IsId id) (record : Record) : (record.setId id).id? = some id := by
  have found : (record.setId id).members.get? Field.primaryKeyName = some (.str id) :=
    Json.Members.get?_set_self _ _ _
  have notBlank : Text.isBlankText id = false := by
    simpa [Text.isBlankText, h.trimmed] using h.nonempty
  rw [Record.id?, found]
  simp [notBlank, h.trimmed]

end IsId

/-! ## Ids in a clause -/

namespace Clause

variable {r : Registry} {policy : FieldPolicy} {ids : List String}

theorem distinctIds_of_isId (each : ∀ id ∈ ids, IsId id) :
    distinctIds ids = distinctBy id ids := by
  have trimmed : ids.map Text.trim = ids := by
    rw [List.map_congr_left fun id mem => (each id mem).trimmed, List.map_id']
  have kept : ids.filter (fun id => !id.isEmpty) = ids := by
    apply List.filter_eq_self.mpr
    intro id mem
    simpa using (each id mem).nonempty
  rw [distinctIds, trimmed, kept]

/-- Ids are listed once each, in the order they first come in. -/
theorem idValues_of_isId (some : ids ≠ []) (each : ∀ id ∈ ids, IsId id) :
    (idValues ids).outcome = .ok (Fragment.values ((distinctBy id ids).map SqlValue.text)) := by
  have listed : distinctBy id ids ≠ [] := by
    cases ids with
    | nil => exact absurd rfl some
    | cons id ids => exact List.cons_ne_nil _ _
  rw [idValues_eq, distinctIds_of_isId each, if_neg listed]

/-- What is written for a record that carries an id: the id, and as many cells as there are
other columns. -/
def RowOf (id : String) (width : Nat) (row : Fragment) : Prop :=
  ∃ cells : List Fragment, cells.length = width ∧
    row = Fragment.parenthesized (Fragment.commas ([.operand (.text id)] :: cells))

theorem rowOf_setId {id : String} (h : IsId id) {record : Record} {columns : List Field}
    {f : Fragment}
    (ok : (row (Field.primaryKey :: columns) (record.setId id)).outcome = .ok f) :
    RowOf id columns.length f := by
  obtain ⟨cells, composed, rfl⟩ := Draft.ok_return.mp ok
  obtain ⟨key, others, first, rest, rfl⟩ :=
    List.forall₂_cons_left_iff.mp (Draft.ok_mapM.mp composed)
  refine ⟨others, rest.length_eq.symm, ?_⟩
  have filled := h.cell?_setId record
  rcases ok_cell first with ⟨empty, -⟩ | ⟨v, value, same, coerced, rfl⟩
  · cases filled.symm.trans empty
  · obtain rfl := Option.some.inj (filled.symm.trans same)
    cases coerced
    rfl

theorem rowsOf_withIds {columns : List Field} {records : List Record} {rows : List Fragment}
    (each : ∀ id ∈ ids, IsId id) (all : ids.length = records.length)
    (written : List.Forall₂
      (fun record f => (row (Field.primaryKey :: columns) record).outcome = .ok f)
      (Table.withIds records ids) rows) :
    List.Forall₂ (fun id f => RowOf id columns.length f) ids rows := by
  induction records generalizing ids rows with
  | nil =>
    obtain rfl := List.length_eq_zero_iff.mp all
    cases written
    exact .nil
  | cons record records ih =>
    cases ids with
    | nil => cases all
    | cons id ids =>
      obtain ⟨isId, others⟩ := List.forall_mem_cons.mp each
      obtain ⟨f, fs, first, rest, rfl⟩ := List.forall₂_cons_left_iff.mp written
      exact .cons (rowOf_setId isId first) (ih others (Nat.succ.inj all) rest)

/-- The key column comes first when some record carries an id. -/
theorem usedColumns_withIds {records : List Record} (some : records ≠ [])
    (each : ∀ id ∈ ids, IsId id) (all : ids.length = records.length) :
    ∃ columns, usedColumns r (Table.withIds records ids) = Field.primaryKey :: columns := by
  cases records with
  | nil => exact absurd rfl some
  | cons record records =>
    cases ids with
    | nil => cases all
    | cons id ids =>
      have isId := each id List.mem_cons_self
      refine ⟨_, List.filter_cons_of_pos ?_⟩
      rw [Table.withIds, List.zipWith_cons_cons, List.any_cons, isId.cell?_setId record]
      rfl

/-- The insertion of records that carry ids writes these ids, each at the head of its row. -/
theorem insertion_withIds {records : List Record} {f : Fragment}
    (each : ∀ id ∈ ids, IsId id) (all : ids.length = records.length)
    (ok : (insertion r policy (Table.withIds records ids)).outcome = .ok f) :
    ids ≠ [] ∧ ∃ (columns : List Field) (rows : List Fragment),
      List.Forall₂ (fun id row => RowOf id columns.length row) ids rows ∧
      f = columnsAndRows (Field.primaryKey :: columns) rows := by
  obtain ⟨notEmpty, -, rows, written, rfl⟩ := ok_insertion_iff.mp ok
  have some : ids ≠ [] := by
    rintro rfl
    exact notEmpty (by rw [Table.withIds, List.zipWith_nil_right])
  have records : records ≠ [] := by
    rintro rfl
    exact some (List.length_eq_zero_iff.mp all)
  obtain ⟨columns, used⟩ := usedColumns_withIds (r := r) records each all
  rw [used] at written ⊢
  exact ⟨some, columns, rows, rowsOf_withIds each all (Draft.ok_mapM.mp written), rfl⟩

end Clause

/-! ## Ids of a table's insertion -/

namespace Table

variable {t : Table} {fresh : Nat → String} {records : List Record}

theorem length_idsOf : (idsOf fresh records).length = records.length := List.length_mapIdx

theorem idsOf_get? (k : Nat) :
    (idsOf fresh records)[k]? = records[k]?.map fun record => record.id?.getD (fresh k) := by
  rw [idsOf, List.getElem?_mapIdx]

/-- Records that carry ids have these for their own. -/
theorem idsOf_withIds {ids : List String} (each : ∀ id ∈ ids, IsId id)
    (all : ids.length = records.length) : idsOf fresh (withIds records ids) = ids := by
  apply List.ext_getElem?
  intro k
  rw [idsOf_get?, withIds, List.getElem?_zipWith]
  cases given : ids[k]? with
  | none => cases records[k]? <;> rfl
  | some id =>
    obtain ⟨bound, rfl⟩ := List.getElem?_eq_some_iff.mp given
    have isId := each ids[k] (List.getElem_mem bound)
    rw [List.getElem?_eq_getElem (all ▸ bound)]
    dsimp only [Option.map_some]
    rw [isId.id?_setId]
    rfl

theorem withIds_withIds (records : List Record) (ids : List String) :
    withIds (withIds records ids) ids = withIds records ids := by
  induction records generalizing ids with
  | nil => rfl
  | cons record records ih =>
    cases ids with
    | nil => rfl
    | cons id ids =>
      have others := ih ids
      simp only [withIds, List.zipWith_cons_cons, Record.setId_setId] at others ⊢
      rw [others]

/-- The insertion of some rows. -/
def inserting (t : Table) (columns : List Field) (rows : List Fragment) : Statement :=
  Fragment.statement t.config.style
    ([.word "INSERT INTO ", .table t.name, .word " "] ++ Clause.columnsAndRows columns rows)

/-- The select of the rows whose keys are among some ids. -/
def selecting (t : Table) (ids : List String) : Statement :=
  Fragment.statement t.config.style
    ([.word "SELECT * FROM ", .table t.name] ++
      keyAmong (Fragment.values (ids.map SqlValue.text)))

/-- An insertion whose ids are those of its records. -/
structure Assigned (t : Table) (fresh : Nat → String) (records : List Record)
    (insertion : Insertion) : Prop where
  /-- One id for each record. -/
  length : insertion.ids.length = records.length
  text : ∀ (k : Nat) (record : Record) (s : String), records[k]? = some record →
    record.members.get? Field.primaryKeyName = some (.str s) → Text.isBlankText s = false →
    insertion.ids[k]? = some (Text.trim s)
  number : ∀ (k : Nat) (record : Record) (n : Json.Number), records[k]? = some record →
    record.members.get? Field.primaryKeyName = some (.num n) → insertion.ids[k]? = some n.text
  /-- A record with neither is given a fresh id. -/
  generated : ∀ (k : Nat) (record : Record), records[k]? = some record →
    (∀ s, record.members.get? Field.primaryKeyName = some (.str s) →
      Text.isBlankText s = true) →
    (∀ n, record.members.get? Field.primaryKeyName ≠ some (.num n)) →
    insertion.ids[k]? = some (fresh k)
  /-- The key column is the first one, and every row begins with the id of its record. -/
  statement : ∃ (columns : List Field) (rows : List Fragment),
    List.Forall₂ (fun id row => Clause.RowOf id columns.length row) insertion.ids rows ∧
    insertion.statement = t.inserting (Field.primaryKey :: columns) rows
  /-- The select asks for every id once, in the order in which they first come. -/
  reselected : ∃ listed, FirstOccurrences id insertion.ids listed ∧
    t.selectByIdsStatement insertion.ids = .ok (t.selecting listed)
  /-- Each record is left with its id, and else as it came. -/
  left : insertion.records.length = records.length ∧
    ∀ (k : Nat) (record : Record) (id : String), records[k]? = some record →
      insertion.ids[k]? = some id → insertion.records[k]? = some (record.setId id)
  /-- Inserting the records that are left is the same insertion, and leaves them as they are. -/
  again : ∀ fresh', t.insertStatement fresh' insertion.records =
    .ok ⟨insertion.statement, insertion.ids, insertion.records⟩

section
variable {insertion : Insertion}
  (inserted : t.insertStatement fresh records = .ok insertion)
include inserted

theorem ids_of_insertStatement : insertion.ids = idsOf fresh records := by
  obtain ⟨_, -, same⟩ := Except.ok_bind.mp inserted
  obtain rfl := Except.ok.inj same
  rfl

theorem records_of_insertStatement : insertion.records = withIds records insertion.ids := by
  obtain ⟨_, -, same⟩ := Except.ok_bind.mp inserted
  obtain rfl := Except.ok.inj same
  rfl

variable (generated : ∀ k, IsId (fresh k))
include generated

theorem isId_of_mem_ids : ∀ id ∈ insertion.ids, IsId id := by
  intro id mem
  rw [ids_of_insertStatement inserted] at mem
  exact .of_mem_ids generated mem

/-- What is written for an insertion. -/
theorem insertion_written :
    insertion.ids ≠ [] ∧ ∃ (columns : List Field) (rows : List Fragment),
      List.Forall₂ (fun id row => Clause.RowOf id columns.length row) insertion.ids rows ∧
      insertion.statement = t.inserting (Field.primaryKey :: columns) rows := by
  have ids := ids_of_insertStatement inserted
  have ok : t.statementOf (.insert fresh records) = .ok insertion.statement := by
    rw [statementOf, inserted]
    rfl
  obtain ⟨f, composed, written⟩ := ok_statementOf ok
  obtain ⟨values, inserts, rfl⟩ := Draft.ok_return.mp composed
  rw [← ids] at inserts
  have all : insertion.ids.length = records.length := by rw [ids, length_idsOf]
  obtain ⟨some, columns, rows, heads, rfl⟩ :=
    Clause.insertion_withIds (isId_of_mem_ids inserted generated) all inserts
  exact ⟨some, columns, rows, heads, written.symm⟩

/-- The rows of an insertion can be asked for. -/
theorem ok_reselect :
    t.selectByIdsStatement insertion.ids = .ok (t.selecting (distinctBy id insertion.ids)) := by
  obtain ⟨some, -⟩ := insertion_written inserted generated
  have listed := Clause.idValues_of_isId some (isId_of_mem_ids inserted generated)
  rw [selectByIdsStatement_of_draft, selectByIdsDraft, Draft.outcome_bind, listed]
  rfl

/-- An insertion that is tried again is the same insertion: no id is made anew. -/
theorem insertStatement_again (fresh' : Nat → String) :
    t.insertStatement fresh' insertion.records = .ok insertion := by
  have each := isId_of_mem_ids inserted generated
  obtain ⟨statement, finished, same⟩ := Except.ok_bind.mp inserted
  obtain rfl := Except.ok.inj same
  rw [insertStatement]
  dsimp only
  rw [idsOf_withIds each length_idsOf, withIds_withIds, finished]
  rfl

end

/-- **Ids are kept.** What an insertion writes, returns and asks for again are the same ids:
those that its records come with, and fresh ones for the others. -/
theorem insertStatement_assigned (t : Table) {fresh : Nat → String}
    (generated : ∀ k, IsId (fresh k)) {records : List Record} {insertion : Insertion}
    (inserted : t.insertStatement fresh records = .ok insertion) :
    Assigned t fresh records insertion := by
  have ids := ids_of_insertStatement inserted
  constructor
  case length => rw [ids, length_idsOf]
  case text =>
    intro k record s here own notBlank
    rw [ids, idsOf_get?, here, Option.map_some, Record.id?, own]
    simp [notBlank]
  case number =>
    intro k record n here own
    rw [ids, idsOf_get?, here, Option.map_some, Record.id?, own]
    rfl
  case generated =>
    intro k record here noText noNumber
    have none : record.id? = none := by
      unfold Record.id?
      split
      · rename_i s own
        rw [noText s own]
        rfl
      · rename_i n own
        exact absurd own (noNumber n)
      · rfl
    rw [ids, idsOf_get?, here, Option.map_some, none]
    rfl
  case statement => exact (insertion_written inserted generated).2
  case reselected => exact ⟨_, .of_distinctBy id insertion.ids, ok_reselect inserted generated⟩
  case left =>
    rw [records_of_insertStatement inserted, withIds]
    refine ⟨?_, fun k record id here given => ?_⟩
    · rw [List.length_zipWith, ids, length_idsOf, Nat.min_self]
    · rw [List.getElem?_zipWith, here, given]
  case again => exact insertStatement_again inserted generated

/-- Notes with a padded id, with a number, with a blank id, and with the first id again. -/
theorem notes_assigned :
    Assigned notes (fun _ => noteId)
      [⟨[("_id", .str " n 1 "), ("text", .str "a")]⟩,
        ⟨[("text", .str "b"), ("_id", .num (.int 7))]⟩,
        ⟨[("_id", .str "\t"), ("text", .str "c")]⟩,
        ⟨[("_id", .str "n 1"), ("text", .str "d")]⟩]
      ⟨⟨"INSERT INTO \"notes\" (\"_id\", \"text\") VALUES " ++
          "($1, $2), ($3, $4), ($5, $6), ($7, $8)",
        [.text "n 1", .text "a", .text "7", .text "b", .text noteId, .text "c",
          .text "n 1", .text "d"]⟩,
        ["n 1", "7", noteId, "n 1"],
        [⟨[("_id", .str "n 1"), ("text", .str "a")]⟩,
          ⟨[("text", .str "b"), ("_id", .str "7")]⟩,
          ⟨[("_id", .str noteId), ("text", .str "c")]⟩,
          ⟨[("_id", .str "n 1"), ("text", .str "d")]⟩]⟩ := by
  have fresh : IsId noteId := .of_isUuid isUuid_noteId
  exact notes.insertStatement_assigned (fun _ => fresh) (by decide +kernel)

end Table
end DocTable
