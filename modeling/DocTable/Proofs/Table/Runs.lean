import DocTable.Proofs.Executor.Orderly
import DocTable.Proofs.Table.Assigned
import DocTable.Proofs.Table.Refusals
import DocTable.Executor.Script
import DocTable.Table.Operations

/-!
# What calls run

A call of a table composes its statement before it hands anything to the executor, and stops
at the executor's first failure (`Call.run_orderly`). So a failure is the client's exactly when
nothing was run. Only a creation hands over two statements, the second one when the first has
been executed.
-/

namespace DocTable
set_option autoImplicit false

theorem Row.countOf_failsInBackend (rows : List Row) : FailsInBackend (countOf rows) := by
  unfold countOf
  split
  · exact .error rfl
  · split
    · exact .ok _
    · exact .error rfl

theorem Row.inOrderOf_failsInBackend (ids : List String) (rows : List Row) :
    FailsInBackend (inOrderOf rows ids) := by
  unfold inOrderOf
  dsimp only
  split
  · exact .ok _
  · exact .error rfl

theorem Script.failed_failsInBackend {α : Type} (answer : Except String α) :
    FailsInBackend (failed answer) := by
  cases answer with
  | ok a => exact .ok a
  | error message => exact .error rfl

/-- An executor with prepared answers reports its failures as such. -/
theorem Script.executor_failsInBackend (textLiterals : Option Dialect) :
    (executor textLiterals).FailsInBackend := by
  constructor
  case fetchAll =>
    intro s script
    show FailsInBackend (fetchAll s script).1
    unfold fetchAll
    cases script.rows with
    | nil => exact .ok _
    | cons answer rest => exact failed_failsInBackend answer
  case execute =>
    intro s script
    show FailsInBackend (execute s script).1
    unfold execute
    cases script.affected with
    | nil => exact .ok _
    | cons answer rest => exact failed_failsInBackend answer

/-! ## Operations -/

namespace Table
open Operation (Traced)

variable {σ : Type} {t : Table} {e : Executor σ}

/-- A creation inserts, and when that is done selects by the ids of the insertion. -/
inductive Creates (t : Table) : Except Error Insertion → List Event → Prop where
  | refused {err : Error} : Creates t (.error err) []
  | failed {insertion : Insertion} {err : Error} :
      Creates t (.ok insertion) [.executed insertion.statement (.error err)]
  | inserted {insertion : Insertion} {n : Nat} {select : Statement}
      {answer : Except Error (List Row)} : t.selectByIdsStatement insertion.ids = .ok select →
      Creates t (.ok insertion)
        [.executed insertion.statement (.ok n), .fetched select answer]

variable (backend : e.FailsInBackend)
include backend

theorem traced_rows (s : Statement) :
    Traced (e.rows s) (e.journaled.rows s) fun result events =>
      Orderly result events ∧ HandsOver (.ok s) events := by
  refine (Traced.fetched backend s).mono ?_
  rintro result _ ⟨orderly, answer, rfl⟩
  exact ⟨orderly, rfl⟩

theorem traced_affected (s : Statement) :
    Traced (e.affected s) (e.journaled.affected s) fun result events =>
      Orderly result events ∧ HandsOver (.ok s) events := by
  refine (Traced.executed backend s).mono ?_
  rintro result _ ⟨orderly, answer, rfl⟩
  exact ⟨orderly, rfl⟩

/-- Decoding is done without the executor. -/
theorem traced_decodedRows (s : Statement) :
    Traced (e.decodedRows s) (e.journaled.decodedRows s) fun result events =>
      Orderly result events ∧ HandsOver (.ok s) events :=
  (traced_rows backend s).map e.decode

theorem traced_createTable : Traced (t.createTable e) (t.createTable e.journaled)
    fun result events => Orderly result events ∧ HandsOver (.ok t.createTableStatement) events :=
  (traced_affected backend t.createTableStatement).backed (g := fun _ => .ok ()) fun _ => .ok _

theorem traced_count (filter : Filter) : Traced (t.count e filter) (t.count e.journaled filter)
    fun result events => Orderly result events ∧ HandsOver (t.countStatement filter) events :=
  .composing (t.statementOf_failsByClient (.count filter)) fun s =>
    (traced_rows backend s).backed Row.countOf_failsInBackend

theorem traced_list (o : ListOptions) : Traced (t.list e o) (t.list e.journaled o)
    fun result events => Orderly result events ∧ HandsOver (t.listStatement o) events :=
  .composing (t.statementOf_failsByClient (.list o)) fun s => traced_decodedRows backend s

theorem traced_listOrCount (o : ListOptions) :
    Traced (t.listOrCount e o) (t.listOrCount e.journaled o) fun result events =>
      Orderly result events ∧ HandsOver
        (if o.countOnly then t.countStatement o.filter else t.listStatement o) events := by
  unfold listOrCount
  split
  · exact (traced_count backend o.filter).map ListResponse.count
  · exact (traced_list backend o).map ListResponse.rows

theorem traced_find (id : String) (select : List String) :
    Traced (t.find e id select) (t.find e.journaled id select) fun result events =>
      Orderly result events ∧ HandsOver (t.findStatement id select) events := by
  refine .composing (t.statementOf_failsByClient (.find id select)) fun s => ?_
  have first := (traced_decodedRows backend s).map List.head?
  rwa [map_eq_pure_bind, map_eq_pure_bind] at first

theorem traced_update (ids : String) (record : Record) :
    Traced (t.update e ids record) (t.update e.journaled ids record) fun result events =>
      Orderly result events ∧ HandsOver (t.updateStatement ids record) events :=
  .composing (t.statementOf_failsByClient (.update ids record)) fun s => traced_affected backend s

theorem traced_deleteMany (ids : String) :
    Traced (t.deleteMany e ids) (t.deleteMany e.journaled ids) fun result events =>
      Orderly result events ∧ HandsOver (t.deleteStatement ids) events :=
  .composing (t.statementOf_failsByClient (.delete ids)) fun s => traced_affected backend s

/-- An id with a comma is refused before its statement is composed. -/
theorem traced_delete (id : String) :
    Traced (t.delete e id) (t.delete e.journaled id) fun result events =>
      Orderly result events ∧ HandsOver
        (if id.toList.contains ',' then .error (.validation (.notSingleId id))
          else t.deleteStatement id) events := by
  unfold delete
  split
  · exact Traced.ofExcept ⟨.refused rfl, rfl⟩
  · exact traced_deleteMany backend id

section
variable {fresh : Nat → String} (generated : ∀ k, IsId (fresh k))
include generated

/-- When the insertion has been executed, the select by its ids is composed without fail. -/
theorem traced_createMany (records : List Record) :
    Traced (t.createMany e fresh records) (t.createMany e.journaled fresh records)
      fun result events =>
        Orderly result events ∧ t.Creates (t.insertStatement fresh records) events := by
  unfold createMany
  cases inserted : t.insertStatement fresh records with
  | error err =>
    have client := t.insertStatement_failsByClient fresh records err inserted
    exact Traced.ofExcept ⟨.refused client, .refused⟩
  | ok insertion =>
    obtain ⟨select, reselects⟩ : ∃ select, t.selectByIdsStatement insertion.ids = .ok select :=
      ⟨_, ok_reselect inserted generated⟩
    refine (Traced.affected e insertion.statement (backend.execute _)).bind ?_ ?_
    · rintro err _ ⟨known, rfl⟩
      exact ⟨.failed (known err rfl) rfl, .failed⟩
    · rintro n _ ⟨-, rfl⟩
      rw [reselects]
      have read := ((Traced.fetched backend select).map e.decode).backed
        (Row.inOrderOf_failsInBackend insertion.ids)
      refine read.mono ?_
      rintro result _ ⟨orderly, answer, rfl⟩
      exact ⟨orderly.cons (List.cons_ne_nil _ _) rfl, .inserted reselects⟩

theorem traced_create (record : Record) :
    Traced (t.create e fresh record) (t.create e.journaled fresh record) fun result events =>
      Orderly result events ∧ t.Creates (t.insertStatement fresh [record]) events := by
  refine (traced_createMany backend generated [record]).backed fun rows => ?_
  cases rows with
  | nil => exact .error rfl
  | cons row rows => exact .ok row

end
end Table

/-! ## Calls -/

/-- A call of a table, by the type of its result. -/
inductive Call : Type → Type where
  | createTable : Call Unit
  | count (filter : Filter) : Call Nat
  | list (o : ListOptions) : Call (List Row)
  | listOrCount (o : ListOptions) : Call ListResponse
  | find (id : String) (select : List String) : Call (Option Row)
  | create (record : Record) : Call Row
  | createMany (records : List Record) : Call (List Row)
  | update (ids : String) (record : Record) : Call Nat
  | delete (id : String) : Call Nat
  | deleteMany (ids : String) : Call Nat

namespace Call

variable {σ α : Type}

def run (t : Table) (e : Executor σ) (fresh : Nat → String) : Call α → Operation σ α
  | .createTable => t.createTable e
  | .count filter => t.count e filter
  | .list o => t.list e o
  | .listOrCount o => t.listOrCount e o
  | .find id select => t.find e id select
  | .create record => t.create e fresh record
  | .createMany records => t.createMany e fresh records
  | .update ids record => t.update e ids record
  | .delete id => t.delete e id
  | .deleteMany ids => t.deleteMany e ids

/-- The statements that a call hands to the executor. -/
def Hands (t : Table) (fresh : Nat → String) (journal : List Event) : Call α → Prop
  | .createTable => HandsOver (.ok t.createTableStatement) journal
  | .count filter => HandsOver (t.countStatement filter) journal
  | .list o => HandsOver (t.listStatement o) journal
  | .listOrCount o => HandsOver
      (if o.countOnly then t.countStatement o.filter else t.listStatement o) journal
  | .find id select => HandsOver (t.findStatement id select) journal
  | .create record => t.Creates (t.insertStatement fresh [record]) journal
  | .createMany records => t.Creates (t.insertStatement fresh records) journal
  | .update ids record => HandsOver (t.updateStatement ids record) journal
  | .delete id => HandsOver
      (if id.toList.contains ',' then .error (.validation (.notSingleId id))
        else t.deleteStatement id) journal
  | .deleteMany ids => HandsOver (t.deleteStatement ids) journal

/-- **A failure is the client's exactly when nothing was run.** Whatever is called and whatever
the executor answers, a journal of the run shows the statements of the call and nothing after
a failure, which is the result. -/
theorem run_orderly (t : Table) {e : Executor σ} (backend : e.FailsInBackend)
    {fresh : Nat → String} (generated : ∀ k, IsId (fresh k)) (call : Call α) (state : σ) :
    ∃ journal,
      (call.run t e.journaled fresh).runFrom (state, []) =
        (((call.run t e fresh).runFrom state).1, ((call.run t e fresh).runFrom state).2,
          journal) ∧
      Orderly ((call.run t e fresh).runFrom state).1 journal ∧ call.Hands t fresh journal := by
  have traced : Operation.Traced (call.run t e fresh) (call.run t e.journaled fresh)
      fun result journal => Orderly result journal ∧ call.Hands t fresh journal := by
    cases call with
    | createTable => exact Table.traced_createTable backend
    | count filter => exact Table.traced_count backend filter
    | list o => exact Table.traced_list backend o
    | listOrCount o => exact Table.traced_listOrCount backend o
    | find id select => exact Table.traced_find backend id select
    | create record => exact Table.traced_create backend generated record
    | createMany records => exact Table.traced_createMany backend generated records
    | update ids record => exact Table.traced_update backend ids record
    | delete id => exact Table.traced_delete backend id
    | deleteMany ids => exact Table.traced_deleteMany backend ids
  obtain ⟨journal, run, orderly, hands⟩ := traced state []
  exact ⟨journal, run, orderly, hands⟩

/-- Two notes are stored, and the select of their rows fails. -/
theorem notes_run_orderly :
    let call : Call (List Row) := .createMany
      [⟨[("_id", .str " n 1 "), ("text", .str "a")]⟩, ⟨[("text", .str "b")]⟩]
    ∃ journal,
      Orderly (.error (.execution (.reported "gone")) : Except Error (List Row)) journal ∧
      call.Hands Table.notes (fun _ => Table.noteId) journal ∧
      journal.map Event.statement = [
        ⟨"INSERT INTO \"notes\" (\"_id\", \"text\") VALUES ($1, $2), ($3, $4)",
          [.text "n 1", .text "a", .text Table.noteId, .text "b"]⟩,
        ⟨"SELECT * FROM \"notes\" WHERE \"_id\" IN ($1, $2)",
          [.text "n 1", .text Table.noteId]⟩] := by
  intro call
  let script : Script := ⟨[.error "gone"], [.ok 2], false, []⟩
  have fresh : IsId Table.noteId := .of_isUuid Table.isUuid_noteId
  have backend := Script.executor_failsInBackend none
  obtain ⟨journal, run, orderly, hands⟩ :=
    call.run_orderly Table.notes backend (fun _ => fresh) script
  have result : ((call.run Table.notes (Script.executor none) fun _ => Table.noteId).runFrom
      script).1 = .error (.execution (.reported "gone")) := by
    decide +kernel
  have statements : ((call.run Table.notes (Script.executor none).journaled
      fun _ => Table.noteId).runFrom (script, [])).2.2.map Event.statement = [
        ⟨"INSERT INTO \"notes\" (\"_id\", \"text\") VALUES ($1, $2), ($3, $4)",
          [.text "n 1", .text "a", .text Table.noteId, .text "b"]⟩,
        ⟨"SELECT * FROM \"notes\" WHERE \"_id\" IN ($1, $2)",
          [.text "n 1", .text Table.noteId]⟩] := by
    decide +kernel
  rw [result] at orderly
  rw [run] at statements
  exact ⟨journal, orderly, hands, statements⟩

end Call
end DocTable
