import DocTable.Proofs.Sql.Grammar

/-!
# Reading a condition's text

Tokens are put together to tests, with the parentheses and connectives between them
(`items`). A text reads as a predicate when the grammar derives that from its items
(`Reading`), and it reads as one predicate at most (`Reading.unique`).
-/

namespace DocTable.Sql
set_option autoImplicit false

def comparison? (symbol : String) : Option Comparison :=
  [Comparison.equal, .notEqual, .above, .atLeast, .below, .atMost].find? fun op =>
    op.symbol == symbol

theorem comparison?_symbol (op : Comparison) : comparison? op.symbol = some op := by
  cases op <;> decide

/-- What has been read of a test. -/
inductive Partial where
  /-- Nothing: a test may start. -/
  | start
  | column (name : String)
  | compared (column : String) (op : Comparison)
  | is (column : String)
  | isNot (column : String)
  | not (column : String)
  /-- A list comes in parentheses. -/
  | list (column : String) (negated : Bool)
  /-- A member of the list comes. -/
  | member (column : String) (negated : Bool) (members : List Operand)
  /-- A comma comes, or the list ends. -/
  | members (column : String) (negated : Bool) (members : List Operand)
  | like (column : String)
  | pattern (column : String) (o : Operand)
  | escape (column : String) (o : Operand)
  /-- The constant test: one is zero. -/
  | one
  | oneIs
  deriving Repr

/-- What is read after one more token, and the item that it completes. -/
def Partial.next : Partial → Token → Option (Partial × Option Item)
  | .start, .name c => some (.column c, none)
  | .start, .symbol "(" => some (.start, some .opening)
  | .start, .symbol ")" => some (.start, some .closing)
  | .start, .word "AND" => some (.start, some .and)
  | .start, .word "OR" => some (.start, some .or)
  | .start, .word "NOT" => some (.start, some .not)
  | .start, .value (.numeral "1") => some (.one, none)
  | .one, .operator "=" => some (.oneIs, none)
  | .oneIs, .value (.numeral "0") => some (.start, some (.test .never))
  | .column c, .operator s => (comparison? s).map fun op => (.compared c op, none)
  | .column c, .word "IS" => some (.is c, none)
  | .column c, .word "NOT" => some (.not c, none)
  | .column c, .word "IN" => some (.list c false, none)
  | .column c, .word "LIKE" => some (.like c, none)
  | .compared c op, t => t.operand?.map fun o => (.start, some (.test (.compare c op o)))
  | .is c, .word "NULL" => some (.start, some (.test (.isNull c)))
  | .is c, .word "NOT" => some (.isNot c, none)
  | .isNot c, .word "NULL" => some (.start, some (.test (.isNotNull c)))
  | .not c, .word "IN" => some (.list c true, none)
  | .list c negated, .symbol "(" => some (.member c negated [], none)
  | .member c negated os, t => t.operand?.map fun o => (.members c negated (os ++ [o]), none)
  | .members c negated os, .symbol "," => some (.member c negated os, none)
  | .members c negated os, .symbol ")" => some (.start, some (.test (.isIn c negated os)))
  | .like c, t => t.operand?.map fun o => (.pattern c o, none)
  | .pattern c o, .word "ESCAPE" => some (.escape c o, none)
  | .escape c o, .value (.text s) => some (.start, some (.test (.like c o s)))
  | _, _ => none

/-- The items of tokens. -/
def items : Partial → List Token → Option (List Item)
  | .start, [] => some []
  | _, [] => none
  | part, t :: ts =>
    (part.next t).bind fun (next, item) => (items next ts).map fun is => item.toList ++ is

/-- The text of a condition, after `before` placeholders, reads as a predicate. -/
def Reading (d : Dialect) (before : Nat) (sql : String) (p : Predicate Operand) : Prop :=
  ∃ is, items .start (tokens d before (lexemes d sql.toList)) = some is ∧ Derives .search is p

theorem Reading.unique {d : Dialect} {before : Nat} {sql : String} {p q : Predicate Operand}
    (hp : Reading d before sql p) (hq : Reading d before sql q) : p = q := by
  obtain ⟨is, hi, derives⟩ := hp
  obtain ⟨js, hj, other⟩ := hq
  obtain rfl : is = js := Option.some.inj (hi.symm.trans hj)
  exact derives.unique other

/-! ## Steps -/

/-- A token inside a test. -/
theorem items_within {part next : Partial} {t : Token} (step : part.next t = some (next, none))
    (ts : List Token) : items part (t :: ts) = items next ts := by
  rw [items, step]
  simp

/-- A token that completes an item. -/
theorem items_item {part next : Partial} {t : Token} {i : Item}
    (step : part.next t = some (next, some i)) (ts : List Token) :
    items part (t :: ts) = (items next ts).map (i :: ·) := by
  rw [items, step]
  rfl

section Operand

variable {t : Token} {o : Operand} (operand : t.operand? = some o) (column : String)
include operand

theorem next_compared (op : Comparison) :
    (Partial.compared column op).next t = some (.start, some (.test (.compare column op o))) := by
  show t.operand?.map _ = _
  rw [operand]
  rfl

theorem next_like : (Partial.like column).next t = some (.pattern column o, none) := by
  show t.operand?.map _ = _
  rw [operand]
  rfl

theorem next_member (negated : Bool) (members : List Operand) :
    (Partial.member column negated members).next t =
      some (.members column negated (members ++ [o]), none) := by
  show t.operand?.map _ = _
  rw [operand]
  rfl

end Operand

end DocTable.Sql
