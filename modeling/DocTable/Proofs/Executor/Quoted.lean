import DocTable.Proofs.Dialect.Unquoting
import DocTable.Proofs.Executor.Journal

/-!
# Executors whose texts are literals

Some drivers return a text as the literal that stands for it. The rows of such an executor,
decoded, are those of the executor that returns the same texts plain (`decodedRows_quoted`).
-/

namespace DocTable
set_option autoImplicit false

namespace Json.Members

theorem get?_map (g : Json → Json) (key : String) (ms : Members) :
    Members.get? key (ms.map fun m => (m.1, g m.2)) = (ms.get? key).map g := by
  induction ms with
  | nil => rfl
  | cons m ms ih =>
    obtain ⟨k, v⟩ := m
    by_cases same : k = key
    · simp [get?, same]
    · simpa [get?, same] using ih

end Json.Members

namespace Dialect

variable (d : Dialect)

/-- A value with its text as a literal. -/
def quoteValue : Json → Json
  | .str s => .str (d.quoteText s)
  | v => v

def quoteRow (row : Row) : Row := row.map fun m => (m.1, d.quoteValue m.2)

def quoteRows (rows : List Row) : List Row := rows.map d.quoteRow

theorem decodeText_quoteText (s : String) : d.decodeText (d.quoteText s) = s := by
  rw [decodeText, unquoteText?_quoteText, Option.getD_some]

@[simp] theorem decodeValue_quoteValue (v : Json) : d.decodeValue (d.quoteValue v) = v := by
  cases v with
  | str s => rw [quoteValue, decodeValue, decodeText_quoteText]
  | _ => rfl

@[simp] theorem decodeRow_quoteRow (row : Row) : d.decodeRow (d.quoteRow row) = row := by
  simp [decodeRow, quoteRow, Function.comp_def]

@[simp] theorem decodeRows_quoteRows (rows : List Row) :
    d.decodeRows (d.quoteRows rows) = rows := by
  simp [decodeRows, quoteRows, Function.comp_def]

end Dialect

namespace Executor

variable {σ : Type}

/-- The executor that returns its texts plain. -/
def plain (e : Executor σ) : Executor σ := { e with textLiterals := none }

/-- The executor that returns the texts of its rows as literals. -/
def quoted (e : Executor σ) (d : Dialect) : Executor σ where
  fetchAll s state := ((e.fetchAll s state).1.map d.quoteRows, (e.fetchAll s state).2)
  execute := e.execute
  textLiterals := some d

variable (e : Executor σ) (d : Dialect)

/-- Decoding undoes the quotes, so the operation is the same. -/
theorem decodedRows_quoted (s : Statement) :
    (e.quoted d).decodedRows s = e.plain.decodedRows s := by
  refine Operation.ext fun state => ?_
  rw [decodedRows, decodedRows, Operation.runFrom_map, Operation.runFrom_map]
  show (((e.fetchAll s state).1.map d.quoteRows).map d.decodeRows, (e.fetchAll s state).2) =
    ((e.fetchAll s state).1.map id, (e.fetchAll s state).2)
  cases (e.fetchAll s state).1 with
  | error err => rfl
  | ok rows => exact congrArg (fun rows => (Except.ok rows, _)) (d.decodeRows_quoteRows rows)

theorem runSql_quoted (sql : String) : (e.quoted d).runSql sql = e.plain.runSql sql :=
  e.decodedRows_quoted d ⟨sql, []⟩

theorem affected_quoted (s : Statement) : (e.quoted d).affected s = e.plain.affected s := rfl

end Executor
end DocTable
