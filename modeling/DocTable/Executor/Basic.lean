import DocTable.Dialect.Literals
import DocTable.Statement.Basic

/-!
# Executors

An executor runs statements: one that returns rows, or one that changes rows and
returns their number. Its state is whatever it keeps from one statement to the
next. An operation is a program over an executor that may fail.
-/

namespace DocTable
set_option autoImplicit false

structure Executor (σ : Type) where
  fetchAll : Statement → σ → Except Error (List Row) × σ
  execute : Statement → σ → Except Error Nat × σ
  /-- The dialect whose literals the texts of its rows are; none when they are plain. -/
  textLiterals : Option Dialect

abbrev Operation (σ α : Type) := ExceptT Error (StateM σ) α

namespace Executor

variable {σ : Type}

def rows (e : Executor σ) (s : Statement) : Operation σ (List Row) :=
  ExceptT.mk (e.fetchAll s)

def affected (e : Executor σ) (s : Statement) : Operation σ Nat :=
  ExceptT.mk (e.execute s)

/-- Rows with their texts as plain text. -/
def decode (e : Executor σ) (rows : List Row) : List Row :=
  match e.textLiterals with
  | some d => d.decodeRows rows
  | none => rows

/-- The decoded rows of a statement. -/
def decodedRows (e : Executor σ) (s : Statement) : Operation σ (List Row) :=
  e.decode <$> e.rows s

/-- The rows of a statement given as text. -/
def runSql (e : Executor σ) (sql : String) : Operation σ (List Row) :=
  e.decodedRows ⟨sql, []⟩

end Executor

/-- Goes on with a result that needed no executor. -/
def Operation.ofExcept {σ α : Type} (r : Except Error α) : Operation σ α := ExceptT.mk (pure r)

/-- The result of an operation, and the state it leaves. -/
def Operation.runFrom {σ α : Type} (o : Operation σ α) (state : σ) : Except Error α × σ :=
  StateT.run (ExceptT.run o) state

end DocTable
