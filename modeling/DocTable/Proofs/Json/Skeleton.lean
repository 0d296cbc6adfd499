import DocTable.Filter
import DocTable.Record

/-!
# Skeletons of requests

The skeleton of a value keeps its names, its nesting and its nulls, and forgets which scalar
stands at each place. A filter also keeps what `$exists` is asked, because that is no value
of a column.
-/

namespace DocTable
set_option autoImplicit false

namespace Json

mutual
/-- A value with one text in the place of every scalar that is not null. What stands under a
key that is kept stays as it is. -/
def skeleton (keeps : String → Bool) : Json → Json
  | .null => .null
  | .bool _ | .num _ | .str _ => .str ""
  | .arr items => .arr (skeletonItems keeps items)
  | .obj members => .obj (skeletonMembers keeps members)

def skeletonItems (keeps : String → Bool) : List Json → List Json
  | [] => []
  | item :: items => skeleton keeps item :: skeletonItems keeps items

def skeletonMembers (keeps : String → Bool) : List (String × Json) → List (String × Json)
  | [] => []
  | (key, value) :: more =>
    (key, if keeps key then value else skeleton keeps value) :: skeletonMembers keeps more
end

variable (keeps : String → Bool)

@[simp] theorem isNull_skeleton (v : Json) : (v.skeleton keeps).isNull = v.isNull := by
  cases v <;> simp [skeleton, isNull]

theorem skeletonItems_eq_map (items : List Json) :
    skeletonItems keeps items = items.map (skeleton keeps) := by
  induction items with
  | nil => rfl
  | cons item items ih => rw [skeletonItems, ih, List.map_cons]

theorem keys_skeletonMembers (members : List (String × Json)) :
    (skeletonMembers keeps members).map Prod.fst = members.map Prod.fst := by
  induction members with
  | nil => rfl
  | cons m members ih => rw [skeletonMembers, List.map_cons, List.map_cons, ih]

end Json

/-- The keys of a filter under which no operand stands. -/
def Filter.keeps (key : String) : Bool := key == "$exists"

def Filter.skeleton (f : Filter) : Json.Members := Json.skeletonMembers Filter.keeps f.members

/-- Whatever stands in a record may be a value of a column. -/
def Record.keeps (_key : String) : Bool := false

def Record.skeleton (r : Record) : Json.Members := Json.skeletonMembers Record.keeps r.members

end DocTable
