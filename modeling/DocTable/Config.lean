import DocTable.Clause.Names
import DocTable.Clause.Page
import DocTable.Dialect.Basic

/-!
# Configuration

What the tables of one backend share.
-/

namespace DocTable
set_option autoImplicit false

/-- The order of a list when the request gives none. -/
inductive DefaultSort where
  | primaryKeyAscending
  | unspecified
  deriving DecidableEq, Repr, Inhabited

namespace DefaultSort

def name : DefaultSort → String
  | .primaryKeyAscending => "primary_key_asc"
  | .unspecified => "unspecified"

def ofName? (s : String) : Option DefaultSort :=
  [primaryKeyAscending, unspecified].find? fun d => d.name == s

end DefaultSort

structure Config where
  backend : Backend
  /-- The page size of a request without a valid count. -/
  defaultCount : Int
  /-- Refuse unknown names instead of passing them over. -/
  strict : Bool
  /-- Write values as literals instead of binding them. -/
  inline : Bool
  defaultSort : DefaultSort
  deriving DecidableEq, Repr

namespace Config

def of (backend : Backend) : Config :=
  ⟨backend, Clause.defaultCount, false, false, .primaryKeyAscending⟩

def default : Config := of .postgres

/-- Sets the page size; one that is not positive leaves it as it is. -/
def setDefaultCount (c : Config) (count : Int) : Config :=
  if 0 < count then { c with defaultCount := count } else c

def policy (c : Config) : FieldPolicy := if c.strict then .reject else .ignore

def dialect (c : Config) : Dialect := c.backend.dialect

def style (c : Config) : Style := Style.of c.dialect c.inline

end Config
end DocTable
