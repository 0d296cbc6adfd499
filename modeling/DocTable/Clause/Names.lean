import DocTable.Distinct
import DocTable.Error
import DocTable.Statement.Basic

/-!
# Column and sort lists

Names that clients give are resolved in their order; a column that comes again,
however it is spelled, counts once. A name that is no column is passed over, or
refused, as the policy says.
-/

namespace DocTable
set_option autoImplicit false

/-- What becomes of a name that is no column. -/
inductive FieldPolicy where
  | ignore
  | reject
  deriving DecidableEq, Repr, Inhabited

def FieldPolicy.unknown (policy : FieldPolicy) (name : String) : Except Error Unit :=
  match policy with
  | .ignore => .ok ()
  | .reject => .error (.unknownField name)

namespace Clause

/-- The column of a name; none when it is passed over. -/
def lookUp (r : Registry) (policy : FieldPolicy) (name : String) : Except Error (Option Field) :=
  match r.resolve? name with
  | some f => .ok (some f)
  | none => (policy.unknown name).map fun _ => none

/-- The columns of a list of names. -/
def projection (r : Registry) (policy : FieldPolicy) (names : List String) :
    Except Error (List Field) := do
  let found ← names.mapM (lookUp r policy)
  return distinctBy Field.key (found.filterMap id)

/-- The column list of a query; none for all columns. -/
def select (r : Registry) (policy : FieldPolicy) (names : List String) :
    Except Error (Option Fragment) := do
  let fields ← projection r policy names
  return if fields.isEmpty then none
    else some (Fragment.commas (fields.map fun f => [.column f.key]))

inductive Direction where
  | ascending
  | descending
  deriving DecidableEq, Repr

def Direction.word : Direction → String
  | .ascending => "ASC"
  | .descending => "DESC"

structure SortTerm where
  field : Field
  direction : Direction
  deriving DecidableEq, Repr

/-- The name in a sort token, and the direction that a leading `-` gives. -/
def sortToken (token : String) : String × Direction :=
  match (Text.trim token).toList with
  | '-' :: name => (String.ofList name, .descending)
  | name => (String.ofList name, .ascending)

/-- The term of a sort token. A blank token is passed over under every policy. -/
def sortTerm (r : Registry) (policy : FieldPolicy) (token : String) :
    Except Error (Option SortTerm) :=
  if Text.isBlankText token then .ok none
  else
    let (name, direction) := sortToken token
    (lookUp r policy name).map fun field => field.map fun f => ⟨f, direction⟩

/-- The terms of a list of sort tokens; the first direction of a column counts. -/
def ordering (r : Registry) (policy : FieldPolicy) (tokens : List String) :
    Except Error (List SortTerm) := do
  let found ← tokens.mapM (sortTerm r policy)
  return distinctBy (fun t => t.field.key) (found.filterMap id)

def SortTerm.fragment (t : SortTerm) : Fragment :=
  [.column t.field.key, .word (" " ++ t.direction.word)]

/-- The order of a query, when any token gives one. -/
def orderBy (r : Registry) (policy : FieldPolicy) (tokens : List String) :
    Except Error (Option Fragment) := do
  let terms ← ordering r policy tokens
  return if terms.isEmpty then none else some (Fragment.commas (terms.map SortTerm.fragment))

end Clause
end DocTable
