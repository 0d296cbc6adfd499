import DocTable.Binary64.Basic

/-!
# Values in SQL

What a statement compares, stores or returns: one scalar of a column's type, or
null.
-/

namespace DocTable
set_option autoImplicit false

inductive SqlValue where
  | null
  | text (s : String)
  | integer (i : Int)
  | double (x : Binary64)
  | boolean (b : Bool)
  deriving DecidableEq, Repr, Inhabited

def SqlValue.isNull : SqlValue → Bool
  | .null => true
  | _ => false

theorem SqlValue.isNull_iff {v : SqlValue} : v.isNull = true ↔ v = .null := by
  cases v <;> simp [isNull]

end DocTable
