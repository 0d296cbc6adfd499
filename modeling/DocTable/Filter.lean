import DocTable.Error
import DocTable.Json.Parser

/-!
# Filters

A filter is an object: names with the values or operators they must meet, and
`$and`, `$or`, `$not` over filters. An empty one selects every row.
-/

namespace DocTable
set_option autoImplicit false

structure Filter where
  members : Json.Members
  deriving DecidableEq, Repr, Inhabited

namespace Filter

def empty : Filter := ⟨[]⟩

def isEmpty (f : Filter) : Bool := f.members.isEmpty

def keys (f : Filter) : List String := f.members.keys

def set (f : Filter) (key : String) (value : Json) : Filter :=
  ⟨f.members.set key value⟩

/-- A filter from a JSON object; null is the empty filter. -/
def ofJson : Json → Except Error Filter
  | .null => .ok empty
  | .obj members => .ok ⟨members⟩
  | v => .error (.filter (.notObject v.kind))

/-- A filter from JSON text; blank text is the empty filter. -/
def parse (s : String) : Except Error Filter :=
  if Text.isBlankText s then .ok empty
  else
    match Json.parse? s with
    | some v => ofJson v
    | none => .error (.filter .notJson)

/-! ## Filters by construction -/

def equals (field : String) (value : Json) : Json := .obj [(field, value)]

/-- One operator on one field. -/
def operator (field op : String) (operand : Json) : Json := .obj [(field, .obj [(op, operand)])]

def notEquals (field : String) (value : Json) : Json := operator field "$ne" value

def above (field : String) (value : Json) : Json := operator field "$gt" value

def atLeast (field : String) (value : Json) : Json := operator field "$gte" value

def below (field : String) (value : Json) : Json := operator field "$lt" value

def atMost (field : String) (value : Json) : Json := operator field "$lte" value

def isIn (field : String) (values : List Json) : Json := operator field "$in" (.arr values)

/-- A text pattern, `%` standing for any text. -/
def matchesPattern (field pattern : String) : Json := operator field "$like" (.str pattern)

def allOf (parts : List Json) : Json := .obj [("$and", .arr parts)]

def anyOf (parts : List Json) : Json := .obj [("$or", .arr parts)]

/-- The filter of a constructed part; what is no filter gives the empty one. -/
def build (part : Json) : Filter :=
  match ofJson part with
  | .ok f => f
  | .error _ => empty

end Filter
end DocTable
