import DocTable.Distinct
import DocTable.Statement.Draft
import DocTable.Text.Split

/-!
# Lists of ids

Ids are trimmed; blank ones are passed over, and one that comes again counts
once. At least one has to be left.
-/

namespace DocTable.Clause
set_option autoImplicit false

/-- The ids that a list names. -/
def distinctIds (ids : List String) : List String :=
  distinctBy id ((ids.map Text.trim).filter fun s => !s.isEmpty)

/-- The operands of a list of ids. -/
def idValues (ids : List String) : Draft Fragment := do
  let values ← (distinctIds ids).mapM fun s => Draft.take (.text s)
  if values.isEmpty then Draft.fail .noIdProvided
  else return Fragment.commas (values.map fun v => [.operand v])

/-- The operands of ids separated by commas. -/
def idList (ids : String) : Draft Fragment := idValues (Text.commaList ids)

/-- The condition that a row's key is among the ids. -/
def idCondition (ids : List String) : Draft Fragment := do
  let list ← idValues ids
  return [.column Field.primaryKeyName, .word " IN "] ++ Fragment.parenthesized list

end DocTable.Clause
