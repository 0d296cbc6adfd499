import DocTable.Statement.Basic

/-!
# Conditions

What a row has to meet. A group of two or more conditions is written in
parentheses, so that every group stands beside others as one operand.
-/

namespace DocTable
set_option autoImplicit false

inductive Comparison where
  | equal
  | notEqual
  | above
  | atLeast
  | below
  | atMost
  deriving DecidableEq, Repr

def Comparison.symbol : Comparison → String
  | .equal => "="
  | .notEqual => "<>"
  | .above => ">"
  | .atLeast => ">="
  | .below => "<"
  | .atMost => "<="

inductive Condition where
  | isNull (column : String)
  | isNotNull (column : String)
  | compare (column : String) (op : Comparison) (value : SqlValue)
  /-- Among some values, at least one; or, when negated, among none of them. -/
  | isIn (column : String) (negated : Bool) (values : List SqlValue)
  | like (column : String) (pattern : SqlValue)
  | never
  | all (parts : List Condition)
  | any (parts : List Condition)
  /-- Not all of them. -/
  | not (parts : List Condition)
  deriving Inhabited, Repr

namespace Condition

/-- The character that takes the next one of a pattern literally. -/
def likeEscape : String := "\\"

mutual
def fragment : Condition → Fragment
  | .isNull column => [.column column, .word " IS NULL"]
  | .isNotNull column => [.column column, .word " IS NOT NULL"]
  | .compare column op value => [.column column, .word (" " ++ op.symbol ++ " "), .operand value]
  | .isIn column negated values =>
    [.column column, .word (if negated then " NOT IN " else " IN ")] ++
      Fragment.parenthesized (Fragment.commas (values.map fun v => [.operand v]))
  | .like column pattern =>
    [.column column, .word " LIKE ", .operand pattern, .word " ESCAPE ",
     .constant (.text likeEscape)]
  | .never => [.word "1 = 0"]
  | .all parts => Fragment.parenthesized (Fragment.separatedBy " AND " (fragments parts))
  | .any parts => Fragment.parenthesized (Fragment.separatedBy " OR " (fragments parts))
  | .not parts =>
    .word "NOT " :: Fragment.parenthesized (Fragment.separatedBy " AND " (fragments parts))

def fragments : List Condition → List Fragment
  | [] => []
  | c :: cs => fragment c :: fragments cs
end

/-- Conditions side by side, all to be met; none when there are none. -/
def conjunctionFragment (parts : List Condition) : Option Fragment :=
  if parts.isEmpty then none else some (Fragment.separatedBy " AND " (fragments parts))

/-- One condition that says the same as several; none for none. -/
def group (join : List Condition → Condition) : List Condition → List Condition
  | [] => []
  | [c] => [c]
  | c :: d :: cs => [join (c :: d :: cs)]

end Condition
end DocTable
