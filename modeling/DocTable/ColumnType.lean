/-!
# Column types and fields

A field is one column of a table: its key, the dotted path it comes from, and
what the schema says of it.
-/

namespace DocTable
set_option autoImplicit false

inductive ColumnType where
  | text
  | number
  | double
  | boolean
  /-- Text without a length. -/
  | blob
  deriving DecidableEq, Repr, Inhabited

namespace ColumnType

def all : List ColumnType := [.text, .number, .double, .boolean, .blob]

/-- The type in a field description. -/
def name : ColumnType → String
  | .text => "text"
  | .number => "number"
  | .double => "double"
  | .boolean => "boolean"
  | .blob => "blob"

/-- The type in a message. -/
def label : ColumnType → String
  | .text => "Text"
  | .number => "Number"
  | .double => "Double"
  | .boolean => "Boolean"
  | .blob => "Blob"

def ofName? (s : String) : Option ColumnType :=
  all.find? fun t => t.name == s

def isTextual : ColumnType → Bool
  | .text | .blob => true
  | _ => false

end ColumnType

structure Field where
  key : String
  sourcePath : String
  type : ColumnType
  isPrimaryKey : Bool
  isUnique : Bool
  isRequired : Bool
  /-- The declared length of a text, below `2 ^ 32`. -/
  maxLength : Option Nat
  deriving DecidableEq, Repr, Inhabited

namespace Field

def primaryKeyName : String := "_id"

/-- The key column that every table has. -/
def primaryKey : Field :=
  ⟨primaryKeyName, primaryKeyName, .text, true, false, false, none⟩

def defaultTextLength : Nat := 64

def textLength (f : Field) : Nat := f.maxLength.getD defaultTextLength

end Field
end DocTable
