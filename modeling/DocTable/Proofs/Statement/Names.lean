import DocTable.Proofs.Statement.Sited

/-!
# The names in a text

A text is read for the names that it quotes (`Sql.quotedNames`). Those of a fragment's text
are the columns and tables of its pieces, and nothing else is read as a name: neither a
word nor a literal, whatever the literal holds (`quotedNames_text`).
-/

namespace DocTable
set_option autoImplicit false

namespace Sql

/-- The lexemes that are names, with their quotes. -/
def names (ls : List Lexeme) : List String :=
  (ls.filter fun l => l.mode = .nameEnd).map Lexeme.text

/-- The names that a text quotes, with their quotes, from left to right. -/
def quotedNames (d : Dialect) (sql : String) : List String := names (lexemes d sql.toList)

theorem names_append (ls more : List Lexeme) : names (ls ++ more) = names ls ++ names more := by
  rw [names, List.filter_append, List.map_append]
  rfl

theorem names_eq_nil {ls : List Lexeme} (none : ∀ l ∈ ls, l.mode ≠ .nameEnd) : names ls = [] := by
  rw [names, List.filter_eq_nil_iff.mpr (by simpa using none), List.map_nil]

theorem text_nameLexeme (d : Dialect) (name : String) :
    (nameLexeme d name).text = d.quoteName name := rfl

theorem names_tableLexemes (d : Dialect) (parts : List String) :
    names (tableLexemes d parts) = parts.map d.quoteName := by
  induction parts with
  | nil => rfl
  | cons part parts ih =>
    cases parts with
    | nil => rfl
    | cons next parts =>
      rw [List.map_cons, ← ih]
      rfl

end Sql

/-- The quoted parts of a table's name. -/
def Dialect.quoteParts (d : Dialect) (table : String) : List String :=
  (Text.split '.' table).map d.quoteName

/-- The names that a piece quotes. -/
def Piece.names (d : Dialect) : Piece → List String
  | .column key => [d.quoteName key]
  | .table name => d.quoteParts name
  | .word _ | .operand _ | .constant _ => []

/-- The names that a fragment quotes. -/
def Fragment.names (d : Dialect) (f : Fragment) : List String := f.flatMap (Piece.names d)

section Backend

variable (b : Backend) {style : Style} (hb : style.dialect = b.dialect)
include hb

theorem Piece.names_lexemes {p : Piece} (plain : p.isPlain = true) (before : Nat) :
    Sql.names (p.lexemes style before) = p.names style.dialect := by
  cases p with
  | word s =>
    obtain ⟨-, chars⟩ := plain_of_isPlain plain
    refine Sql.names_eq_nil fun l mem name => ?_
    rw [lexemes, text, hb] at mem
    have isPlain := (Sql.lexemes_plain b chars).1 l mem
    rw [name] at isPlain
    cases isPlain
  | column key =>
    rw [lexemes, text, (Sql.single_quoteName style.dialect key).lexemes, Sql.toList_quoteName]
    rfl
  | table name =>
    rw [lexemes, text, hb, (Sql.lexemes_quoteTable b name).1, Sql.names_tableLexemes]
    rfl
  | operand v =>
    cases bound : style.binds v with
    | true =>
      rw [lexemes_bound b hb bound]
      rfl
    | false =>
      obtain ⟨l, cut, -, notName, -⟩ := lexemes_literal b hb v
      rw [lexemes_unbound bound, cut]
      exact Sql.names_eq_nil (by simpa using notName)
  | constant v =>
    obtain ⟨l, cut, -, notName, -⟩ := lexemes_literal b hb v
    rw [lexemes, text, cut]
    exact Sql.names_eq_nil (by simpa using notName)

namespace Fragment

theorem names_lexemes {f : Fragment} (plain : ∀ p ∈ f, p.isPlain = true) (before : Nat) :
    Sql.names (f.lexemes style before) = f.names style.dialect := by
  induction f generalizing before with
  | nil => rfl
  | cons p ps ih =>
    have here := Piece.names_lexemes b hb (plain p List.mem_cons_self) before
    have rest := ih (fun q hq => plain q (List.mem_cons_of_mem p hq))
      (before + (p.bound style).length)
    rw [lexemes, Sql.names_append, here, rest]
    rfl

/-- The names in the text of a well spaced fragment are those of its pieces. -/
theorem quotedNames_text {f : Fragment} (spaced : f.WellSpaced) (before : Nat) :
    Sql.quotedNames style.dialect (f.text style before) = f.names style.dialect := by
  rw [Sql.quotedNames, lexemes_text b hb spaced, names_lexemes b hb spaced.plain]

end Fragment
end Backend

/-! ## Names of composed fragments -/

namespace Fragment

variable (d : Dialect)

@[simp] theorem names_nil : names d [] = [] := rfl

@[simp] theorem names_word (s : String) (f : Fragment) : names d (.word s :: f) = f.names d := rfl

@[simp] theorem names_column (key : String) (f : Fragment) :
    names d (.column key :: f) = d.quoteName key :: f.names d := rfl

@[simp] theorem names_table (name : String) (f : Fragment) :
    names d (.table name :: f) = d.quoteParts name ++ f.names d := rfl

@[simp] theorem names_operand (v : SqlValue) (f : Fragment) :
    names d (.operand v :: f) = f.names d := rfl

@[simp] theorem names_constant (v : SqlValue) (f : Fragment) :
    names d (.constant v :: f) = f.names d := rfl

@[simp] theorem names_append (f g : Fragment) : (f ++ g).names d = f.names d ++ g.names d :=
  List.flatMap_append

@[simp] theorem names_separatedBy (separator : String) (fs : List Fragment) :
    (separatedBy separator fs).names d = fs.flatMap (names d) :=
  read_separatedBy (names_append d) rfl fs

@[simp] theorem names_commas (fs : List Fragment) : (commas fs).names d = fs.flatMap (names d) :=
  names_separatedBy d ", " fs

@[simp] theorem names_parenthesized (f : Fragment) : f.parenthesized.names d = f.names d := by
  simp [parenthesized]

@[simp] theorem names_values (vs : List SqlValue) : (values vs).names d = [] := by
  simp [values, List.flatMap_map]

end Fragment
end DocTable
