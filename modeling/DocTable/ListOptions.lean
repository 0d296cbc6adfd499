import DocTable.Clause.Page
import DocTable.Filter

/-!
# List requests

What a list request asks for. As a query everything is text: a number that is
none, or not positive, counts as absent, and only a bad filter is refused.
-/

namespace DocTable
set_option autoImplicit false

structure ListOptions where
  /-- The columns to return; all when empty. -/
  select : List String
  /-- Sort tokens, a leading `-` for descending; the default order when empty. -/
  sort : List String
  /-- The page, counted from 1. -/
  page : Option Int
  /-- The page size; `-1` for all rows. -/
  count : Option Int
  filter : Filter
  countOnly : Bool
  deriving DecidableEq, Repr, Inhabited

namespace ListOptions

def empty : ListOptions := ⟨[], [], none, none, .empty, false⟩

end ListOptions

/-- A list request as query text. -/
structure ListQuery where
  select : Option String
  sort : Option String
  page : Option String
  count : Option String
  filter : Option String
  countOnly : Option String
  deriving DecidableEq, Repr, Inhabited

namespace ListQuery

/-- The fields by their names in a query. -/
def entries (q : ListQuery) : List (String × Option String) :=
  [("select", q.select), ("sort", q.sort), ("page", q.page), ("count", q.count),
   ("filter", q.filter), ("countOnly", q.countOnly)]

/-- An optional text in an object; none when it is something else. -/
def optionalText? (key : String) (ms : Json.Members) : Option (Option String) :=
  match ms.get? key with
  | none | some .null => some none
  | some (.str s) => some (some s)
  | some _ => none

/-- A query from an object of texts; other keys do not count. -/
def ofJson? : Json → Option ListQuery
  | .obj ms => do
    let select ← optionalText? "select" ms
    let sort ← optionalText? "sort" ms
    let page ← optionalText? "page" ms
    let count ← optionalText? "count" ms
    let filter ← optionalText? "filter" ms
    let countOnly ← optionalText? "countOnly" ms
    some ⟨select, sort, page, count, filter, countOnly⟩
  | _ => none

/-- The texts that are given. -/
def toJson (q : ListQuery) : Json :=
  .obj (q.entries.filterMap fun e => e.2.map fun s => (e.1, .str s))

def number? (s : Option String) : Option Int :=
  s.bind fun s => Decimal.int64? (Text.trim s)

def flag (s : Option String) : Bool :=
  match s with
  | none => false
  | some s => ["true", "1", ""].contains (Text.trim s)

def options (q : ListQuery) : Except Error ListOptions := do
  let filter ← match q.filter with
    | some s => Filter.parse s
    | none => .ok .empty
  return {
    select := (q.select.map Text.commaList).getD []
    sort := (q.sort.map Text.commaList).getD []
    page := (number? q.page).filter fun n => decide (0 < n)
    count := (number? q.count).filter fun n => decide (0 < n ∨ n = Clause.unlimited)
    filter
    countOnly := flag q.countOnly }

end ListQuery
end DocTable
