import DocTable.Executor.Script
import DocTable.Proofs.Executor.Journal
import DocTable.Proofs.Row.InOrder
import DocTable.Proofs.Table.Assigned
import DocTable.Table.Operations

/-!
# Creations and the rows read back

A creation gives the rows of its records in their order, whatever the order is in which the
database answers and whatever other rows it answers with (`createMany_rereads`).
-/

namespace DocTable.Table
set_option autoImplicit false

/-- The executor runs an insertion, and answers the select by its ids with some rows. -/
structure Reselects {σ : Type} (t : Table) (e : Executor σ) (state : σ) (insertion : Insertion)
    (rows : List Row) : Prop where
  executed : ∃ n, (e.execute insertion.statement state).1 = .ok n
  answered : ∀ select, t.selectByIdsStatement insertion.ids = .ok select →
    ∃ raw, (e.fetchAll select (e.execute insertion.statement state).2).1 = .ok raw ∧
      e.decode raw = rows

/-- What a creation comes to when some rows are read back. -/
structure Rereads (records : List Record) (insertion : Insertion) (rows : List Row)
    (result : Except Error (List Row)) : Prop where
  succeeds : (∃ out, result = .ok out) ↔
    insertion.ids.Nodup ∧ ∀ id ∈ insertion.ids, ∃ row ∈ rows, row.idText? = some id
  /-- The i-th row is the only one with the i-th id. -/
  ordered : ∀ out, result = .ok out →
    out.length = records.length ∧ List.Forall₂ (Row.IsOnly rows) insertion.ids out
  failure : ∀ err, result = .error err → ∃ cause, err = .execution cause

variable {σ : Type} {t : Table} {fresh : Nat → String} {records : List Record}
variable {insertion : Insertion}

/-- A creation whose statements are run puts the rows in order. -/
theorem run_createMany (generated : ∀ k, IsId (fresh k))
    (inserted : t.insertStatement fresh records = .ok insertion) {e : Executor σ} {state : σ}
    {rows : List Row} (reselects : t.Reselects e state insertion rows) :
    ((t.createMany e fresh records).runFrom state).1 = Row.inOrderOf rows insertion.ids := by
  have selects := ok_reselect inserted generated
  obtain ⟨n, executed⟩ := reselects.executed
  obtain ⟨raw, answered, rfl⟩ := reselects.answered _ selects
  rw [createMany, inserted, Operation.runFrom_bind, Operation.runFrom_ofExcept]
  dsimp only
  rw [Operation.runFrom_bind]
  have first : (e.affected insertion.statement).runFrom state =
      (.ok n, (e.execute insertion.statement state).2) := Prod.ext executed rfl
  rw [first, selects]
  dsimp only
  rw [Operation.runFrom_bind, Operation.runFrom_ofExcept]
  dsimp only
  rw [Executor.decodedRows, map_eq_pure_bind, Operation.runFrom_bind, Operation.runFrom_bind]
  generalize t.selecting (distinctBy id insertion.ids) = select at answered ⊢
  have second : (e.rows select).runFrom (e.execute insertion.statement state).2 =
      (.ok raw, (e.fetchAll select (e.execute insertion.statement state).2).2) :=
    Prod.ext answered rfl
  rw [second]
  rfl

theorem rereads_inOrderOf (all : insertion.ids.length = records.length) {rows : List Row}
    (distinct : (rows.filterMap Row.idText?).Nodup) :
    Rereads records insertion rows (Row.inOrderOf rows insertion.ids) := by
  constructor
  case succeeds => exact Row.exists_inOrderOf_iff
  case ordered =>
    intro out ok
    have each := Row.isOnly_of_inOrderOf distinct ok
    exact ⟨each.length_eq.symm.trans all, each⟩
  case failure =>
    intro err failed
    unfold Row.inOrderOf at failed
    dsimp only at failed
    split at failed
    · cases failed
    · cases failed
      exact ⟨_, rfl⟩

/-- **Rows come back in the order of their records.** Of the rows that are read back, with
distinct ids, a creation gives those of its records, in their order, or fails in the database.
Neither their places nor rows with other ids change that. -/
theorem createMany_rereads (t : Table) (generated : ∀ k, IsId (fresh k))
    (inserted : t.insertStatement fresh records = .ok insertion) {e : Executor σ} {state : σ}
    {rows : List Row} (reselects : t.Reselects e state insertion rows)
    (distinct : (rows.filterMap Row.idText?).Nodup) :
    Rereads records insertion rows ((t.createMany e fresh records).runFrom state).1 ∧
    ∀ {τ : Type} (e' : Executor τ) (state' : τ) (rows' extra : List Row),
      t.Reselects e' state' insertion rows' → rows'.Perm (rows ++ extra) →
      (∀ row ∈ extra, ∀ id ∈ insertion.ids, row.idText? ≠ some id) →
      ((t.createMany e' fresh records).runFrom state').1 =
        ((t.createMany e fresh records).runFrom state).1 := by
  have run := run_createMany generated inserted reselects
  constructor
  · rw [run]
    have all : insertion.ids.length = records.length := by
      rw [ids_of_insertStatement inserted, length_idsOf]
    exact rereads_inOrderOf all distinct
  · intro τ e' state' rows' extra reselects' perm foreign
    rw [run, run_createMany generated inserted reselects']
    exact Row.inOrderOf_of_perm distinct perm foreign

/-- Two notes, read back from the last one to the first, the number of an id as a number; then
in the other order, with a row of another note between them. -/
theorem notes_reread :
    let records : List Record :=
      [⟨[("_id", .str " n 1 "), ("text", .str "a")]⟩, ⟨[("_id", .str "7"), ("text", .str "b")]⟩]
    let first : Row := [("_id", .str "n 1"), ("text", .str "a")]
    let second : Row := [("_id", .num (.int 7)), ("text", .str "b")]
    let other : Row := [("_id", .str "n 2"), ("text", .str "c")]
    let answers (rows : List Row) : Except Error (List Row) :=
      ((notes.createMany (Script.executor none) (fun _ => noteId) records).runFrom
        ⟨[.ok rows], [.ok 2], false, []⟩).1
    ∃ insertion, Rereads records insertion [second, first] (answers [second, first]) ∧
      answers [second, first] = .ok [first, second] ∧
      answers [first, other, second] = answers [second, first] := by
  intro records first second other answers
  let insertion : Insertion :=
    ⟨⟨"INSERT INTO \"notes\" (\"_id\", \"text\") VALUES ($1, $2), ($3, $4)",
      [.text "n 1", .text "a", .text "7", .text "b"]⟩, ["n 1", "7"],
      [⟨[("_id", .str "n 1"), ("text", .str "a")]⟩, ⟨[("_id", .str "7"), ("text", .str "b")]⟩]⟩
  have fresh : IsId noteId := .of_isUuid isUuid_noteId
  have inserted : notes.insertStatement (fun _ => noteId) records = .ok insertion := by
    decide +kernel
  have reselects (rows : List Row) : notes.Reselects (Script.executor none)
      ⟨[.ok rows], [.ok 2], false, []⟩ insertion rows :=
    ⟨⟨2, rfl⟩, fun _ _ => ⟨rows, rfl, rfl⟩⟩
  have distinct : ([second, first].filterMap Row.idText?).Nodup := by decide +kernel
  obtain ⟨rereads, same⟩ := notes.createMany_rereads (fun _ => fresh) inserted
    (reselects [second, first]) distinct
  have perm : [first, other, second].Perm ([second, first] ++ [other]) := by decide +kernel
  have foreign : ∀ row ∈ [other], ∀ id ∈ insertion.ids, row.idText? ≠ some id := by
    decide +kernel
  refine ⟨insertion, rereads, ?_, ?_⟩
  · decide +kernel
  · exact same _ _ _ [other] (reselects [first, other, second]) perm foreign

end DocTable.Table
