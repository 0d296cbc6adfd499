import DocTable.Database.Cell
import DocTable.Executor.Basic

/-!
# Servers with prepared replies

Each statement that an executor sends takes the next reply. Cells are read by
column name, so of columns with one name the last one counts, at the place of the
first.
-/

namespace DocTable.Database
set_option autoImplicit false

/-- What a server reports when a statement fails. -/
structure Failure where
  code : String
  message : String
  deriving DecidableEq, Repr

/-- The text of a failure. In a code of two parts the second is the state. -/
def Failure.text (p : Product) (f : Failure) : String :=
  "error returned from database: " ++
    match p with
    | .postgres => f.message
    | .mysql =>
      match Text.split ' ' f.code with
      | [number, state] => number ++ " (" ++ state ++ "): " ++ f.message
      | _ => f.code ++ ": " ++ f.message

structure Reply where
  /-- Names and types. -/
  columns : List (String × String)
  rows : List (List Cell)
  /-- What was done, with the number of rows at the end. -/
  tag : String
  affected : Nat
  failure : Option Failure
  deriving DecidableEq, Repr

def Reply.empty : Reply := ⟨[], [], "", 0, none⟩

/-- A statement as the server received it, its values with their types. -/
structure Received where
  sql : String
  params : List (String × SqlValue)
  deriving DecidableEq, Repr

/-- The name under which a driver sends values of a type. Statements bind four of the types. -/
def DriverType.sentAs : Product → DriverType → String
  | .postgres, .int64 => "INT8"
  | .postgres, .double => "FLOAT8"
  | .postgres, .bool => "BOOL"
  | .postgres, _ => "TEXT"
  | .mysql, .int64 => "BIGINT"
  | .mysql, .double => "DOUBLE"
  | .mysql, .bool => "BOOLEAN"
  | .mysql, _ => "VARCHAR"

structure Server where
  product : Product
  replies : List Reply
  received : List Received
  deriving Repr

/-- The number after the last space of a tag; zero when there is none within 64 bits. -/
def tagCount (tag : String) : Nat :=
  match (Text.split ' ' tag).reverse with
  | word :: _ :: _ =>
    let digits := match word.toList with
      | '+' :: cs => cs.takeWhile Char.isDigit
      | cs => cs.takeWhile Char.isDigit
    let n := Decimal.natOfDigits digits
    if n ≤ Bounds.maxUInt64 then n else 0
  | _ => 0

namespace Reply

def affectedBy (p : Product) (r : Reply) : Nat :=
  match p with
  | .postgres => tagCount r.tag
  | .mysql => if r.columns.isEmpty then r.affected else 0

/-- A row as the driver has it. By a name it finds the last of the columns with that name. -/
def driverRow (p : Product) (r : Reply) (cells : List Cell) : DriverRow :=
  let decoders := (r.columns.zip cells).map fun c => (c.1.1, c.2.decode p c.1.2)
  { columns := (r.columns.zip cells).map Prod.fst
    get := fun name => (decoders.reverse.lookup name).getD fun _ => none }

def rowsRead (p : Product) (r : Reply) : List Row :=
  if r.columns.isEmpty then [] else r.rows.map fun cells => (r.driverRow p cells).convert p

/-- A result, unless the reply is a failure. -/
def orFail {α : Type} (p : Product) (r : Reply) (result : α) : Except Error α :=
  match r.failure with
  | some f => .error (.sql (f.text p))
  | none => .ok result

end Reply

namespace Server

/-- Sends a statement. One that is refused before any column never gets its values. -/
def send (s : Statement) (server : Server) : Reply × Server :=
  let reply := server.replies.headD .empty
  let refused := reply.failure.isSome && reply.columns.isEmpty
  let params := if refused then []
    else s.params.map fun v => ((Bound.of v).type.sentAs server.product, v)
  (reply, { server with
    replies := server.replies.tail
    received := server.received ++ [⟨s.sql, params⟩] })

def fetchAll (s : Statement) (server : Server) : Except Error (List Row) × Server :=
  let (reply, after) := server.send s
  (reply.orFail server.product (reply.rowsRead server.product), after)

def execute (s : Statement) (server : Server) : Except Error Nat × Server :=
  let (reply, after) := server.send s
  (reply.orFail server.product (reply.affectedBy server.product), after)

/-- The executor of a server, whose texts are plain. -/
def executor : Executor Server := ⟨fetchAll, execute, none⟩

/-- How an attempt to connect ends. -/
inductive Connection where
  | open
  | badAddress
  | refused (f : Failure)

def connect (p : Product) (c : Connection) (replies : List Reply) : Except Error Server :=
  match c with
  | .open => .ok ⟨p, replies, []⟩
  | .badAddress => .error (.execution (.connectionFailed none))
  | .refused f => .error (.execution (.connectionFailed (some (f.text p))))

end Server
end DocTable.Database
