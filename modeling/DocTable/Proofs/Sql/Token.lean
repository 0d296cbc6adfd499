import DocTable.Proofs.Sql.Sites

/-!
# Tokens

Lexemes become tokens: blanks are dropped, quotes are taken off, and a placeholder gets
its position, which a numbered one carries and another one has by its place in the text.
-/

namespace DocTable
set_option autoImplicit false

/-- An operand as it is written: a placeholder with its position, or a literal. -/
inductive Operand where
  | placeholder (index : Nat)
  | null
  | text (s : String)
  | numeral (s : String)
  | truth (b : Bool)
  deriving DecidableEq, Repr

/-- The operand that a value's literal denotes. -/
def Operand.ofLiteral (d : Dialect) : SqlValue → Operand
  | .null => .null
  | .text s => .text s
  | .integer i => .numeral (toString i)
  | .double x => if x.isFinite then .numeral (Dialect.doubleLayout.write x) else .null
  | .boolean b =>
    if d.booleanLiteral b = "TRUE" then .truth true
    else if d.booleanLiteral b = "FALSE" then .truth false
    else .numeral (d.booleanLiteral b)

namespace Sql

inductive Token where
  | name (s : String)
  | value (o : Operand)
  | word (s : String)
  | operator (s : String)
  | symbol (s : String)
  /-- A quote that is not closed. -/
  | open
  deriving DecidableEq, Repr

/-- The value that a token stands for where a value is expected. -/
def Token.operand? : Token → Option Operand
  | .value o => some o
  | .word "NULL" => some .null
  | .word "TRUE" => some (.truth true)
  | .word "FALSE" => some (.truth false)
  | _ => none

/-- The position of a placeholder after `before` others. -/
def position (d : Dialect) (before : Nat) (l : Lexeme) : Nat :=
  match d.placeholders with
  | .question => before + 1
  | .numbered mark => Nat.ofDigitChars 10 (l.chars.drop mark.toList.length) 0

/-- The token of a lexeme that is not blank, after `before` placeholders. -/
def Lexeme.token (d : Dialect) (before : Nat) (l : Lexeme) : Token :=
  match l.mode with
  | .placeholder => .value (.placeholder (position d before l))
  | .nameEnd => .name ((l.name? d).getD "")
  | .textEnd => .value (.text (d.decodeText l.text))
  | .number => .value (.numeral l.text)
  | .word | .national => .word l.text
  | .operator => .operator l.text
  | .blank | .symbol => .symbol l.text
  | .name | .text | .textEscape => .open

/-- The tokens of lexemes after `before` placeholders. -/
def tokens (d : Dialect) : Nat → List Lexeme → List Token
  | _, [] => []
  | before, l :: ls =>
    (if l.mode = .blank then [] else [l.token d before]) ++
      tokens d (if l.mode = .placeholder then before + 1 else before) ls

/-- How many placeholders there are. -/
def countPlaceholders (ls : List Lexeme) : Nat := ls.countP fun l => l.mode = .placeholder

theorem tokens_append (d : Dialect) (before : Nat) (ls more : List Lexeme) :
    tokens d before (ls ++ more) =
      tokens d before ls ++ tokens d (before + countPlaceholders ls) more := by
  induction ls generalizing before with
  | nil => rfl
  | cons l ls ih =>
    rw [List.cons_append, tokens, tokens, ih, List.append_assoc]
    congr 3
    by_cases h : l.mode = .placeholder
    · simp only [h, if_true, countPlaceholders, List.countP_cons, decide_true]
      omega
    · simp [h, countPlaceholders]

/-! ## What a dialect writes -/

theorem drop_mark_placeholder {d : Dialect} {mark : String}
    (style : d.placeholders = .numbered mark) (k : Nat) :
    (d.placeholder k).toList.drop mark.toList.length = Nat.toDigits 10 k := by
  rw [toList_placeholder_numbered style, List.drop_left]

/-- A placeholder that is written for a position has that position. -/
theorem position_placeholder (d : Dialect) (before : Nat) :
    position d before ⟨.placeholder, (d.placeholder (before + 1)).toList⟩ = before + 1 := by
  unfold position
  split
  · rfl
  · rename_i mark style
    rw [drop_mark_placeholder style]
    exact Nat.ofDigitChars_toDigits (by decide) (by decide)

theorem token_name (d : Dialect) (before : Nat) (key : String) :
    (nameLexeme d key).token d before = .name key := by
  show Token.name (((nameLexeme d key).name? d).getD "") = .name key
  rw [Lexeme.name?_nameLexeme]
  rfl

/-- Only a placeholder's token depends on what stands before it. -/
theorem token_before (d : Dialect) {l : Lexeme} (h : l.mode ≠ .placeholder) (before : Nat) :
    l.token d before = l.token d 0 := by
  obtain ⟨mode, chars⟩ := l
  cases mode with
  | placeholder => exact absurd rfl h
  | _ => rfl

/-- Tokens depend on what stands before them only if there are placeholders. -/
theorem tokens_before {d : Dialect} {ls : List Lexeme} (none : ∀ l ∈ ls, l.mode ≠ .placeholder)
    (before : Nat) : tokens d before ls = tokens d 0 ls := by
  induction ls with
  | nil => rfl
  | cons l ls ih =>
    have here := none l List.mem_cons_self
    have rest := ih fun m hm => none m (List.mem_cons_of_mem l hm)
    rw [tokens, tokens, token_before d here, if_neg here, if_neg here, rest]

/-- A literal is read as the operand that it denotes. -/
theorem operand?_literal (b : Backend) (before : Nat) (v : SqlValue) :
    (Lexeme.token b.dialect before
      ⟨literalMode b.dialect v, (b.dialect.literal v).toList⟩).operand? =
        some (.ofLiteral b.dialect v) := by
  have literal : literalMode b.dialect v ≠ .placeholder := by
    have h := literalMode_mem b v
    intro e
    rw [e] at h
    revert h
    decide
  rw [token_before b.dialect literal]
  cases v with
  | null => cases b <;> decide
  | text s =>
    show some (Operand.text (b.dialect.decodeText (String.ofList _))) = _
    rw [String.ofList_toList, Dialect.decodeText]
    show some (Operand.text ((b.dialect.unquoteText? (b.dialect.quoteText s)).getD _)) = _
    rw [Dialect.unquoteText?_quoteText]
    rfl
  | integer i =>
    show some (Operand.numeral (String.ofList (toString i).toList)) = _
    rw [String.ofList_toList]
    rfl
  | double x =>
    rw [literalMode, Dialect.literal, Operand.ofLiteral]
    split
    · show some (Operand.numeral (String.ofList _)) = _
      rw [String.ofList_toList]
    · rfl
  | boolean v => cases b <;> cases v <;> decide

end Sql
end DocTable
