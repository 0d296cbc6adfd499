import DocTable.ColumnType
import DocTable.Decimal.Layout
import DocTable.Dialect.Quoting
import DocTable.SqlValue
import DocTable.Text.Split

/-!
# Dialects

A dialect is data: how it marks bound values, quotes names and texts, asks for a
page of rows, names the column types and creates a table. Everything else about
a statement is the same in all of them.
-/

namespace DocTable
set_option autoImplicit false

/-- How a bound value is marked. -/
inductive PlaceholderStyle where
  | question
  /-- A mark and the position, counted from 1. -/
  | numbered (mark : String)
  deriving DecidableEq, Repr

/-- A part of the fragment that asks for a page. -/
inductive PagePart where
  | word (s : String)
  | limit
  | offset
  deriving DecidableEq, Repr

/-- The names of the column types; the one of a text is followed by its length. -/
structure TypeNames where
  text : String
  number : String
  double : String
  boolean : String
  blob : String
  deriving DecidableEq, Repr

/-- How a table is created that may be there already. -/
inductive TableCreation where
  | ifNotExists
  | guarded
  | always
  deriving DecidableEq, Repr

structure Dialect where
  name : String
  placeholders : PlaceholderStyle
  /-- Whether statements may carry bound values at all. -/
  binds : Bool
  trueLiteral : String
  falseLiteral : String
  openingQuote : Char
  closingQuote : Char
  texts : TextQuoting
  page : List PagePart
  /-- The order of a page that is asked for without one. -/
  pageOrder : Option String
  types : TypeNames
  creation : TableCreation
  deriving DecidableEq, Repr

namespace Dialect

/-! ## Texts and names -/

def quoteText (d : Dialect) (s : String) : String :=
  String.ofList (d.texts.quoteChars s.toList)

/-- The text of a complete literal. -/
def unquoteText? (d : Dialect) (literal : String) : Option String :=
  (d.texts.unquoteChars? literal.toList).map String.ofList

/-- The text of a literal; what is none is left as it is. -/
def decodeText (d : Dialect) (s : String) : String := (d.unquoteText? s).getD s

def quoteNameChars (d : Dialect) (cs : List Char) : List Char :=
  d.openingQuote :: Quoting.double d.closingQuote cs ++ [d.closingQuote]

def quoteName (d : Dialect) (name : String) : String :=
  String.ofList (d.quoteNameChars name.toList)

/-- A table name, its parts quoted one by one. -/
def quoteTable (d : Dialect) (table : String) : String :=
  ".".intercalate ((Text.split '.' table).map d.quoteName)

/-! ## Values -/

/-- The mark of the `index`-th bound value. -/
def placeholder (d : Dialect) (index : Nat) : String :=
  match d.placeholders with
  | .question => "?"
  | .numbered mark => mark ++ toString index

def booleanLiteral (d : Dialect) (b : Bool) : String :=
  if b then d.trueLiteral else d.falseLiteral

/-- Never an exponent, and no fraction for a whole number. -/
def doubleLayout : Decimal.Layout := ⟨.up, none, ""⟩

example : doubleLayout.write ⟨0x3ff0000000000000⟩ = "1" := by decide +kernel
example : doubleLayout.write ⟨0x3e7ad7f29abcaf48⟩ = "0.0000001" := by decide +kernel
example : doubleLayout.write ⟨0x4341c37937e08000⟩ = "10000000000000000" := by decide +kernel

/-- A value written into the statement. -/
def literal (d : Dialect) : SqlValue → String
  | .null => "NULL"
  | .text s => d.quoteText s
  | .integer i => toString i
  | .double x => if x.isFinite then doubleLayout.write x else "NULL"
  | .boolean b => d.booleanLiteral b

/-! ## Pages, columns and tables -/

def pageText (d : Dialect) (limit offset : Nat) : String :=
  String.join (d.page.map fun part =>
    match part with
    | .word s => s
    | .limit => toString limit
    | .offset => toString offset)

def columnType (d : Dialect) (f : Field) : String :=
  match f.type with
  | .text => d.types.text ++ "(" ++ toString f.textLength ++ ")"
  | .number => d.types.number
  | .double => d.types.double
  | .boolean => d.types.boolean
  | .blob => d.types.blob

/-- A column in the definition of its table. -/
def columnDefinition (d : Dialect) (f : Field) : String :=
  let role :=
    if f.isPrimaryKey then ["PRIMARY KEY"]
    else (if f.isUnique then ["UNIQUE"] else []) ++ (if f.isRequired then ["NOT NULL"] else [])
  " ".intercalate (d.quoteName f.key :: d.columnType f :: role)

/-- The statement that creates a table, from its quoted name and its columns. -/
def createTable (d : Dialect) (table columns : String) : String :=
  let create := "TABLE " ++ table ++ " (" ++ columns ++ ")"
  match d.creation with
  | .ifNotExists => "CREATE TABLE IF NOT EXISTS " ++ table ++ " (" ++ columns ++ ")"
  | .guarded =>
    "IF OBJECT_ID(N'" ++ String.ofList (Quoting.double Quoting.apostrophe table.toList) ++
      "', N'U') IS NULL CREATE " ++ create
  | .always => "CREATE " ++ create

/-- The statement that creates a table with some columns. -/
def createTableFor (d : Dialect) (table : String) (fields : List Field) : String :=
  d.createTable (d.quoteTable table) (", ".intercalate (fields.map d.columnDefinition))

/-! ## The known dialects -/

def ansiTypes : TypeNames := ⟨"VARCHAR", "BIGINT", "DOUBLE PRECISION", "BOOLEAN", "TEXT"⟩

def limitOffset : List PagePart := [.word "LIMIT ", .limit, .word " OFFSET ", .offset]

def offsetFetch : List PagePart :=
  [.word "OFFSET ", .offset, .word " ROWS FETCH FIRST ", .limit, .word " ROWS ONLY"]

def postgres : Dialect where
  name := "postgres"
  placeholders := .numbered "$"
  binds := true
  trueLiteral := "TRUE"
  falseLiteral := "FALSE"
  openingQuote := '"'
  closingQuote := '"'
  texts := .plain
  page := limitOffset
  pageOrder := none
  types := ansiTypes
  creation := .ifNotExists

def mysql : Dialect where
  name := "mysql"
  placeholders := .question
  binds := true
  trueLiteral := "TRUE"
  falseLiteral := "FALSE"
  openingQuote := '\x60'
  closingQuote := '\x60'
  texts := .backslash
  page := limitOffset
  pageOrder := none
  types := ⟨"VARCHAR", "BIGINT", "DOUBLE", "BOOLEAN", "LONGTEXT"⟩
  creation := .ifNotExists

/-- A page is part of the order here, so it needs one. -/
def mssql : Dialect where
  name := "mssql"
  placeholders := .numbered "@p"
  binds := true
  trueLiteral := "1"
  falseLiteral := "0"
  openingQuote := '['
  closingQuote := ']'
  texts := .national
  page := offsetFetch
  pageOrder := some "(SELECT NULL)"
  types := ⟨"NVARCHAR", "BIGINT", "FLOAT", "BIT", "NVARCHAR(MAX)"⟩
  creation := .guarded

def oracle : Dialect where
  name := "oracle"
  placeholders := .numbered ":"
  binds := true
  trueLiteral := "1"
  falseLiteral := "0"
  openingQuote := '"'
  closingQuote := '"'
  texts := .plain
  page := offsetFetch
  pageOrder := none
  types := ⟨"VARCHAR2", "NUMBER(19)", "BINARY_DOUBLE", "NUMBER(1)", "CLOB"⟩
  creation := .always

end Dialect

/-- The databases whose dialects are known. -/
inductive Backend where
  | postgres
  | mysql
  | mssql
  | oracle
  deriving DecidableEq, Repr, Inhabited

namespace Backend

def all : List Backend := [.postgres, .mysql, .mssql, .oracle]

def dialect : Backend → Dialect
  | .postgres => .postgres
  | .mysql => .mysql
  | .mssql => .mssql
  | .oracle => .oracle

/-- The names that stand for a backend in a configuration. -/
def names : Backend → List String
  | .postgres => ["postgres"]
  | .mysql => ["mysql", "mariadb"]
  | .mssql => ["mssql", "sqlserver"]
  | .oracle => ["oracle", "oracledb"]

def ofName? (s : String) : Option Backend :=
  all.find? fun b => b.names.contains s

end Backend
end DocTable
