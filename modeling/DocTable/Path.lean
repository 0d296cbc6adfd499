import DocTable.Text.Split

/-!
# Paths and column keys

A nested property has a dotted path, `address.city`. Its column key joins the
same segments with three underscores, `address___city`.
-/

namespace DocTable.Path
set_option autoImplicit false

def separator : String := "___"

/-- The segments of a dotted path. -/
def segments (path : String) : List String := Text.split '.' path

/-- The column key of a path. Blanks around the path do not count. -/
def flatten (path : String) : String :=
  separator.intercalate (segments (Text.trim path))

/-- A name below a parent path. -/
def child (parent : Option String) (name : String) : String :=
  match parent with
  | none => name
  | some p => p ++ "." ++ name

end DocTable.Path
