import DocTable.Proofs.Sql.Definition

/-!
# Numbers in a table's definition

The text that creates a table is read for its numbers, each with the column in whose item it
stands (`numbersFrom`). Text that begins no item leaves all its numbers to one column.
-/

namespace DocTable.Sql
set_option autoImplicit false

/-- The number that a lexeme writes with digits. -/
def Lexeme.number? (l : Lexeme) : Option Nat :=
  if l.mode = .number then some (Nat.ofDigitChars 10 l.chars 0) else none

/-- The numbers of some lexemes. -/
def numbers (ls : List Lexeme) : List Nat := ls.filterMap Lexeme.number?

theorem numbers_append (ls more : List Lexeme) : numbers (ls ++ more) = numbers ls ++ numbers more :=
  List.filterMap_append

theorem numbers_tableLexemes (d : Dialect) (parts : List String) :
    numbers (tableLexemes d parts) = [] := by
  refine List.filterMap_eq_nil_iff.mpr fun l mem => if_neg ?_
  rcases mode_of_mem_tableLexemes mem with name | symbol
  · simp [name]
  · simp [symbol]

theorem numbers_natural (n : Nat) : numbers [⟨.number, Nat.toDigits 10 n⟩] = [n] :=
  congrArg (fun k => [k]) Nat.ofDigitChars_ten_toDigits

namespace Definition

/-- The column in whose item a reader stands, with its quotes. -/
def column (r : Definition) : String := r.columns.getLastD ""

/-- The numbers after what has been read, each with its column. -/
def numbersFrom (r : Definition) : List Lexeme → List (String × Nat)
  | [] => []
  | l :: ls => (l.number?.map fun n => (r.column, n)).toList ++ numbersFrom (r.next l) ls

/-- The numbers of a text, each with its column. -/
def numbersOf (d : Dialect) (sql : String) : List (String × Nat) :=
  empty.numbersFrom (lexemes d sql.toList)

theorem numbersFrom_append (r : Definition) (ls more : List Lexeme) :
    r.numbersFrom (ls ++ more) = r.numbersFrom ls ++ (r.read ls).numbersFrom more := by
  induction ls generalizing r with
  | nil => rfl
  | cons l ls ih =>
    rw [List.cons_append, numbersFrom, numbersFrom, ih, List.append_assoc]
    rfl

theorem numbersFrom_eq_nil {ls : List Lexeme} (none : numbers ls = []) (r : Definition) :
    r.numbersFrom ls = [] := by
  induction ls generalizing r with
  | nil => rfl
  | cons l ls ih =>
    obtain ⟨first, others⟩ := List.forall_mem_cons.mp (List.filterMap_eq_nil_iff.mp none)
    rw [numbersFrom, first, ih (List.filterMap_eq_nil_iff.mpr others)]
    rfl

/-- What begins no item has the numbers of the item that it stands in. -/
theorem numbersFrom_passed {ls : List Lexeme} (passed : ls.all passes = true) (r : Definition) :
    r.numbersFrom ls = (numbers ls).map fun n => (r.column, n) := by
  induction ls generalizing r with
  | nil => rfl
  | cons l ls ih =>
    rw [List.all_cons, Bool.and_eq_true] at passed
    obtain ⟨p, here⟩ := next_passed passed.1 r
    rw [numbersFrom, ih passed.2, here]
    simp only [numbers, List.filterMap_cons]
    cases l.number? <;> rfl

end Definition
end DocTable.Sql
