import DocTable.Executor.Basic

/-!
# An executor with prepared answers

Each statement takes the next answer of its kind. When the answers with rows run
out, a statement may be answered by one row for each text it binds, with that
text as its key.
-/

namespace DocTable
set_option autoImplicit false

structure Script where
  rows : List (Except String (List Row))
  affected : List (Except String Nat)
  /-- Answer by the bound texts when there are no more rows. -/
  echo : Bool
  /-- The statements run so far. -/
  ran : List Statement

namespace Script

def failed {α : Type} (answer : Except String α) : Except Error α :=
  answer.mapError fun message => .execution (.reported message)

/-- A row for each bound text. -/
def echoRows (s : Statement) : List Row :=
  s.params.filterMap fun v =>
    match v with
    | .text id => some [(Field.primaryKeyName, .str id)]
    | _ => none

def fetchAll (s : Statement) (script : Script) : Except Error (List Row) × Script :=
  let after := { script with ran := script.ran ++ [s] }
  match script.rows with
  | answer :: rest => (failed answer, { after with rows := rest })
  | [] => (.ok (if script.echo then echoRows s else []), after)

def execute (s : Statement) (script : Script) : Except Error Nat × Script :=
  let after := { script with ran := script.ran ++ [s] }
  match script.affected with
  | answer :: rest => (failed answer, { after with affected := rest })
  | [] => (.ok 0, after)

def executor (textLiterals : Option Dialect) : Executor Script :=
  ⟨fetchAll, execute, textLiterals⟩

end Script
end DocTable
