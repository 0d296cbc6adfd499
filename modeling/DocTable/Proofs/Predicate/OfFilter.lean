import DocTable.Condition.OfFilter
import DocTable.Proofs.Predicate.Basic

/-!
# The predicate that a filter states

A filter is read as a tree: the members of an object are all to be met, `$and` and
`$or` join the filters of a list, `$not` negates one, and a field gives its tests.
What names no column adds no node, and neither does a node without parts.
-/

namespace DocTable
set_option autoImplicit false

/-- A value of a request, and the field that it is meant for. -/
structure Given where
  field : Field
  value : Json
  deriving DecidableEq, Repr

namespace Given

/-- The value in the type of the field; null when it is none of that type. -/
def typed (g : Given) : SqlValue :=
  match g.field.coerce g.value with
  | .ok v => v
  | .error _ => .null

/-- The value is one of the field's type. -/
def Fits (g : Given) : Prop := g.field.coerce g.value = .ok g.typed

theorem fits_of_coerce {f : Field} {v : Json} {value : SqlValue} (h : f.coerce v = .ok value) :
    Fits ⟨f, v⟩ ∧ typed ⟨f, v⟩ = value := by
  have same : typed ⟨f, v⟩ = value := by
    unfold typed
    rw [h]
  exact ⟨by rw [Fits, same, h], same⟩

end Given

namespace Predicate

/-- The operators that compare. -/
def comparisons : List (String × Comparison) :=
  [("$eq", .equal), ("$ne", .notEqual), ("$gt", .above), ("$gte", .atLeast), ("$lt", .below),
   ("$lte", .atMost)]

/-- A comparison of a column; with null, equality asks whether the column is null. -/
def ofComparison (f : Field) : Comparison → Json → List (Predicate Given)
  | .equal, .null => [.isNull f.key]
  | .notEqual, .null => [.isNotNull f.key]
  | op, v => [.compare f.key op ⟨f, v⟩]

/-- The test that an operator states of a column. To be outside an empty list states none. -/
def ofOperator (f : Field) (op : String) (operand : Json) : List (Predicate Given) :=
  match comparisons.lookup op with
  | some comparison => ofComparison f comparison operand
  | none =>
    match operand with
    | .arr items =>
      if op = "$in" then [.isIn f.key false (items.map (Given.mk f))]
      else if op = "$nin" && !items.isEmpty then [.isIn f.key true (items.map (Given.mk f))]
      else []
    | .bool exist =>
      if op = "$exists" then [if exist then .isNotNull f.key else .isNull f.key] else []
    | pattern => if op = "$like" then [.like f.key ⟨f, pattern⟩ "\\"] else []

/-- The tests that a value states of a column. -/
def ofValue (f : Field) : Json → List (Predicate Given)
  | .null => [.isNull f.key]
  | .arr items => [.isIn f.key false (items.map (Given.mk f))]
  | .obj members => members.flatMap fun m => ofOperator f m.1 m.2
  | scalar => [.compare f.key .equal ⟨f, scalar⟩]

/-- A node over its parts; none without parts. -/
def node {ω : Type} (join : List (Predicate ω) → Predicate ω) :
    List (Predicate ω) → List (Predicate ω)
  | [] => []
  | parts => [join parts]

theorem node_eq_nil_iff {ω : Type} {join : List (Predicate ω) → Predicate ω}
    {ps : List (Predicate ω)} : node join ps = [] ↔ ps = [] := by
  cases ps <;> simp [node]

theorem mem_node {ω : Type} {join : List (Predicate ω) → Predicate ω} {ps : List (Predicate ω)}
    {p : Predicate ω} : p ∈ node join ps ↔ ps ≠ [] ∧ p = join ps := by
  cases ps <;> simp [node]

mutual
/-- The predicates that an object's members state, names read below `parent`. -/
def ofMembers (r : Registry) (parent : Option String) :
    List (String × Json) → List (Predicate Given)
  | [] => []
  | (key, value) :: more => ofMember r parent key value ++ ofMembers r parent more

def ofMember (r : Registry) (parent : Option String) (key : String) :
    Json → List (Predicate Given)
  | .obj members =>
    if key = "$not" then node (fun parts => .not (.all parts)) (ofMembers r none members)
    else if Condition.isOperator key then []
    else
      match r.resolve? (Path.child parent key) with
      | some f => ofValue f (.obj members)
      | none =>
        if Condition.hasOperator members then []
        else ofMembers r (some (Path.child parent key)) members
  | .arr items =>
    if key = "$and" then node .all (ofFilters r items)
    else if key = "$or" then node .any (ofFilters r items)
    else if Condition.isOperator key then []
    else
      match r.resolve? (Path.child parent key) with
      | some f => ofValue f (.arr items)
      | none => []
  | scalar =>
    if Condition.isOperator key then []
    else
      match r.resolve? (Path.child parent key) with
      | some f => ofValue f scalar
      | none => []

/-- One predicate for each filter of a list that states any. -/
def ofFilters (r : Registry) : List Json → List (Predicate Given)
  | [] => []
  | .obj members :: more => node .all (ofMembers r none members) ++ ofFilters r more
  | _ :: more => ofFilters r more
end

/-- The predicates that a filter states, all to be met. -/
def ofFilter (r : Registry) (f : Filter) : List (Predicate Given) := ofMembers r none f.members

section Name

variable {r : Registry} {parent : Option String} {key : String}
  (name : Condition.isOperator key = false)
include name

theorem ne_of_name {op : String} (operator : Condition.isOperator op = true) : key ≠ op := by
  rintro rfl
  rw [name] at operator
  cases operator

/-- A member that is a name states what its column, the names below it or nothing states. -/
theorem ofMember_name (v : Json) :
    ofMember r parent key v =
      match r.resolve? (Path.child parent key), v with
      | some f, v => ofValue f v
      | none, .obj members =>
        if Condition.hasOperator members then []
        else ofMembers r (some (Path.child parent key)) members
      | none, _ => [] := by
  have notOperator : ¬ Condition.isOperator key = true := by simp [name]
  cases v with
  | obj members =>
    rw [ofMember, if_neg (ne_of_name name rfl), if_neg notOperator]
    cases r.resolve? (Path.child parent key) <;> rfl
  | arr items =>
    rw [ofMember, if_neg (ne_of_name name rfl), if_neg (ne_of_name name rfl), if_neg notOperator]
    cases r.resolve? (Path.child parent key) <;> rfl
  | _ =>
    rw [ofMember.eq_3, if_neg notOperator]
    · cases r.resolve? (Path.child parent key) <;> rfl
    · intro members object
      cases object
    · intro items list
      cases list

end Name

end Predicate
end DocTable
