import DocTable.Error
import DocTable.Registry.Basic

/-!
# Records

A record is the payload of a row: flat, nested, or keyed by dotted paths. It can
be read field by field (`field?`) or flattened as a whole (`flatten`).
-/

namespace DocTable
set_option autoImplicit false

structure Record where
  members : Json.Members
  deriving DecidableEq, Repr, Inhabited

/-- Null and empty text, lists and objects are absent; false and zero are values. -/
def Json.isPresent : Json → Bool
  | .null => false
  | .str s => !s.isEmpty
  | .arr items => !items.isEmpty
  | .obj members => !members.isEmpty
  | .bool _ | .num _ => true

/-- The value at the end of a walk through nested objects. -/
def Json.walk? : List String → Json → Option Json
  | [], v => some v
  | name :: names, .obj members => (Json.Members.get? name members).bind (Json.walk? names)
  | _ :: _, _ => none

namespace Record

def empty : Record := ⟨[]⟩

/-- A record from a JSON object. -/
def ofJson : Json → Except Error Record
  | .obj members => .ok ⟨members⟩
  | v => .error (.validation (.recordNotObject v.kind))

def set (r : Record) (key : String) (value : Json) : Record :=
  ⟨r.members.set key value⟩

/-- The record's own id: text that is not blank, trimmed, or the text of a number. -/
def id? (r : Record) : Option String :=
  match r.members.get? Field.primaryKeyName with
  | some (.str s) => if Text.isBlankText s then none else some (Text.trim s)
  | some (.num n) => some n.text
  | _ => none

def setId (r : Record) (id : String) : Record :=
  r.set Field.primaryKeyName (.str id)

/-- The value of a field: by its key, else by its dotted path as a key, else along the path. -/
def field? (r : Record) (f : Field) : Option Json :=
  match r.members.get? f.key, r.members.get? f.sourcePath with
  | some v, _ => some v
  | none, some v => some v
  | none, none => Json.walk? (Path.segments f.sourcePath) (.obj r.members)

/-- The column key of a name inside an object that has a column key itself. -/
def flatKey (parent : Option String) (name : String) : String :=
  match parent with
  | none => Path.flatten name
  | some p => p ++ Path.separator ++ Path.flatten name

mutual
/-- Adds the leaves of an object, a later leaf taking the place of an earlier one of its key. -/
def flattenMembers (parent : Option String) :
    List (String × Json) → Json.Members → Json.Members
  | [], acc => acc
  | (name, value) :: more, acc =>
    flattenMembers parent more (flattenValue (flatKey parent name) value acc)

/-- Adds one value under its column key. An object with members adds its leaves. -/
def flattenValue (key : String) : Json → Json.Members → Json.Members
  | .obj (m :: ms), acc => flattenMembers (some key) (m :: ms) acc
  | v, acc => acc.set key v
end

/-- The leaves of a record by column key. -/
def flatten (r : Record) : Json.Members :=
  flattenMembers none r.members []

end Record
end DocTable
