import DocTable.Proofs.Sql.Sites

/-!
# Columns of a table's definition

The text that creates a table is read for its columns and its primary keys (`Definition`). A
column is a name that begins an item of a list in parentheses, whatever else is named.
-/

namespace DocTable.Sql
set_option autoImplicit false

def primary : Lexeme := ⟨.word, "PRIMARY".toList⟩

def key : Lexeme := ⟨.word, "KEY".toList⟩

/-- What has been read of the text that creates a table. -/
structure Definition where
  /-- The last lexeme that is no blank. -/
  previous : Option Lexeme
  /-- The names of the columns, with their quotes. -/
  columns : List String
  /-- For each `PRIMARY KEY` the column that it stands with. -/
  primaryKeys : List String
  deriving DecidableEq, Repr

namespace Definition

def empty : Definition := ⟨none, [], []⟩

/-- Whether the next lexeme begins an item of a list. -/
def isOpen (r : Definition) : Bool := r.previous = some opening || r.previous = some comma

def next (r : Definition) (l : Lexeme) : Definition :=
  if l.mode = .blank then r
  else
    { previous := some l
      columns := if l.mode = .nameEnd && r.isOpen then r.columns ++ [l.text] else r.columns
      primaryKeys :=
        if l = key && r.previous = some primary then r.primaryKeys ++ [r.columns.getLastD ""]
        else r.primaryKeys }

def read (r : Definition) (ls : List Lexeme) : Definition := ls.foldl next r

def ofText (d : Dialect) (sql : String) : Definition := empty.read (lexemes d sql.toList)

theorem read_append (r : Definition) (ls more : List Lexeme) :
    r.read (ls ++ more) = (r.read ls).read more :=
  List.foldl_append

/-- The last lexeme that is no blank is kept. -/
theorem previous_read (r : Definition) (ls : List Lexeme) :
    (r.read ls).previous = (ls.filter fun l => l.mode ≠ .blank).getLast?.or r.previous := by
  induction ls generalizing r with
  | nil => rfl
  | cons l ls ih =>
    refine (ih (r.next l)).trans ?_
    by_cases blank : l.mode = .blank
    · simp [next, blank]
    · rw [List.filter_cons_of_pos (by simpa using blank), List.getLast?_cons]
      cases (ls.filter fun l => l.mode ≠ .blank).getLast? <;> simp [next, blank]

/-! ## What a reader passes over -/

/-- Neither a name nor the word that completes `PRIMARY KEY`. -/
def passes (l : Lexeme) : Bool := l.mode ≠ .nameEnd && l ≠ key

theorem next_passed {l : Lexeme} (passed : passes l = true) (r : Definition) :
    ∃ p, r.next l = { r with previous := p } := by
  obtain ⟨notName, notKey⟩ : l.mode ≠ .nameEnd ∧ l ≠ key := by simpa [passes] using passed
  unfold next
  split
  · exact ⟨r.previous, rfl⟩
  · exact ⟨some l, by simp [notName, notKey]⟩

theorem read_passed {ls : List Lexeme} (passed : ls.all passes = true) (r : Definition) :
    ∃ p, r.read ls = { r with previous := p } := by
  induction ls generalizing r with
  | nil => exact ⟨r.previous, rfl⟩
  | cons l ls ih =>
    rw [List.all_cons, Bool.and_eq_true] at passed
    obtain ⟨p, here⟩ := next_passed passed.1 r
    obtain ⟨q, rest⟩ := ih passed.2 (r.next l)
    refine ⟨q, ?_⟩
    show (r.next l).read ls = _
    rw [rest, here]

theorem next_name (d : Dialect) (name : String) (r : Definition) :
    r.next (nameLexeme d name) =
      { previous := some (nameLexeme d name)
        columns := if r.isOpen then r.columns ++ [d.quoteName name] else r.columns
        primaryKeys := r.primaryKeys } := by
  have notKey : nameLexeme d name ≠ key := fun same => by cases congrArg Lexeme.mode same
  have isName : (nameLexeme d name).mode = .nameEnd := rfl
  simp only [next, isName, notKey, decide_true, decide_false, Bool.true_and, Bool.false_and,
    Bool.false_eq_true, if_false]
  rfl

/-- The table's own name is no column, for it begins no item. -/
theorem read_table (d : Dialect) (parts : List String) {r : Definition}
    (closed : r.isOpen = false) :
    ∃ p, r.read (tableLexemes d parts) = { r with previous := p } := by
  induction parts generalizing r with
  | nil => exact ⟨r.previous, rfl⟩
  | cons part parts ih =>
    have first : r.next (nameLexeme d part) =
        { r with previous := some (nameLexeme d part) } := by
      rw [next_name, closed]
      rfl
    cases parts with
    | nil => exact ⟨_, first⟩
    | cons following parts =>
      have point : (r.next (nameLexeme d part)).next ⟨.symbol, ['.']⟩ =
          { r with previous := some ⟨.symbol, ['.']⟩ } := by
        rw [first]
        simp [next, key]
      obtain ⟨p, rest⟩ := ih (r := { r with previous := some ⟨.symbol, ['.']⟩ }) rfl
      refine ⟨p, ?_⟩
      show ((r.next (nameLexeme d part)).next ⟨.symbol, ['.']⟩).read _ = _
      rw [point, rest]

end Definition
end DocTable.Sql
