import DocTable.Proofs.Sql.Lexeme

/-!
# Fixed words and separators

Fixed words hold no names, no placeholders and no texts (`lexemes_plain`). Blanks,
parentheses and commas go on with no lexeme whose quotes are closed
(`extend?_separator`), so what is written between them is cut by itself.
-/

namespace DocTable.Sql
set_option autoImplicit false
open Quoting (apostrophe backslash)

/-- A character that goes on with no closed lexeme, and nothing goes on with it. -/
def isSeparator (c : Char) : Bool := c = ' ' || c = '(' || c = ')' || c = ','

/-- A character of the fixed words of a statement. -/
def isPlainChar (c : Char) : Bool :=
  c.isAlphanum || isOperatorChar c || isSeparator c || c = '*'

namespace Mode

/-- No quote is open. -/
def isClosed : Mode → Bool
  | .name | .text | .textEscape => false
  | _ => true

/-- Neither quoted nor a placeholder. -/
def isPlain : Mode → Bool
  | .blank | .symbol | .operator | .word | .national | .number => true
  | _ => false

/-- Nothing goes on with the lexeme. -/
def isTight : Mode → Bool
  | .blank | .symbol => true
  | _ => false

theorem isClosed_of_isPlain {mode : Mode} (plain : mode.isPlain = true) :
    mode.isClosed = true := by
  cases mode with
  | name | text | textEscape => cases plain
  | _ => rfl

theorem isClosed_of_isTight {mode : Mode} (tight : mode.isTight = true) :
    mode.isClosed = true := by
  cases mode with
  | blank | symbol => rfl
  | _ => cases tight

theorem extend?_of_isTight (d : Dialect) {mode : Mode} (tight : mode.isTight = true) (c : Char) :
    extend? d mode c = none := by
  cases mode with
  | blank | symbol => rfl
  | _ => cases tight

end Mode

/-! ## Separators -/

theorem isSeparator_iff {c : Char} :
    isSeparator c = true ↔ c = ' ' ∨ c = '(' ∨ c = ')' ∨ c = ',' := by
  simp [isSeparator, or_assoc]

section Separator

variable {c : Char} (separator : isSeparator c = true)
include separator

theorem isWordChar_separator : isWordChar c = false := by
  rcases isSeparator_iff.mp separator with rfl | rfl | rfl | rfl <;> decide

theorem isOperatorChar_separator : isOperatorChar c = false := by
  rcases isSeparator_iff.mp separator with rfl | rfl | rfl | rfl <;> decide

theorem isAlphanum_separator : c.isAlphanum = false := by
  rcases isSeparator_iff.mp separator with rfl | rfl | rfl | rfl <;> decide

theorem isDigit_separator : c.isDigit = false := by
  rcases isSeparator_iff.mp separator with rfl | rfl | rfl | rfl <;> decide

theorem point_ne_separator : c ≠ '.' := by
  rintro rfl
  cases separator

theorem apostrophe_ne_separator : c ≠ apostrophe := by
  rintro rfl
  cases separator

theorem closingQuote_ne_separator (b : Backend) : c ≠ b.dialect.closingQuote := by
  rintro rfl
  revert separator
  cases b <;> decide

theorem extendsPlaceholder_separator (style : PlaceholderStyle) :
    extendsPlaceholder style c = false := by
  cases style with
  | question => rfl
  | numbered mark => exact isAlphanum_separator separator

theorem isTight_start_separator (b : Backend) : (start b.dialect c).isTight = true := by
  rcases isSeparator_iff.mp separator with rfl | rfl | rfl | rfl <;> cases b <;> decide

theorem extend?_separator (b : Backend) {mode : Mode} (closed : mode.isClosed = true) :
    extend? b.dialect mode c = none := by
  have word := isWordChar_separator separator
  have operator := isOperatorChar_separator separator
  have digit := isDigit_separator separator
  have point := point_ne_separator separator
  have apostrophe := apostrophe_ne_separator separator
  have closing := closingQuote_ne_separator separator b
  have mark := extendsPlaceholder_separator separator b.dialect.placeholders
  cases mode with
  | name | text | textEscape => cases closed
  | _ => simp [extend?, *]

end Separator

section Parts

variable {b : Backend} {front back : List Char}

/-- Text before a separator is cut by itself when no quote is left open. -/
theorem lexemes_separated (closed : (lastMode b.dialect front).isClosed = true)
    (separated : ∀ c ∈ back.head?, isSeparator c = true) :
    lexemes b.dialect (front ++ back) = lexemes b.dialect front ++ lexemes b.dialect back :=
  lexemes_append fun c first => extend?_separator (separated c first) b closed

theorem lexemes_tight (tight : (lastMode b.dialect front).isTight = true) :
    lexemes b.dialect (front ++ back) = lexemes b.dialect front ++ lexemes b.dialect back :=
  lexemes_append fun c _ => Mode.extend?_of_isTight b.dialect tight c

theorem isClosed_separated (closed : (lastMode b.dialect front).isClosed = true)
    (separated : ∀ c ∈ back.head?, isSeparator c = true)
    (closedToo : (lastMode b.dialect back).isClosed = true) :
    (lastMode b.dialect (front ++ back)).isClosed = true := by
  cases back with
  | nil => rwa [List.append_nil]
  | cons c cs =>
    rw [lastMode_append (List.cons_ne_nil c cs)
      fun c first => extend?_separator (separated c first) b closed]
    exact closedToo

theorem isClosed_tight (tight : (lastMode b.dialect front).isTight = true)
    (closed : (lastMode b.dialect back).isClosed = true) :
    (lastMode b.dialect (front ++ back)).isClosed = true := by
  cases back with
  | nil =>
    rw [List.append_nil]
    exact Mode.isClosed_of_isTight tight
  | cons c cs =>
    rw [lastMode_append (List.cons_ne_nil c cs)
      fun e _ => Mode.extend?_of_isTight b.dialect tight e]
    exact closed

end Parts

/-! ## Fixed words -/

section Plain

variable (b : Backend) {c : Char} (plain : isPlainChar c = true)
include plain

theorem apostrophe_ne_plain : c ≠ apostrophe := by
  rintro rfl
  cases plain

theorem openingQuote_ne_plain : c ≠ b.dialect.openingQuote := by
  rintro rfl
  revert plain
  cases b <;> decide

theorem opensPlaceholder_plain : opensPlaceholder b.dialect.placeholders c = false := by
  have marks : ∀ m ∈ ['?', '$', '@', ':'], c ≠ m := by
    intro m hm e
    subst e
    simp only [List.mem_cons, List.not_mem_nil, or_false] at hm
    rcases hm with rfl | rfl | rfl | rfl <;> cases plain
  cases b
  · have := marks '$' (by decide)
    exact beq_false_of_ne fun e => this (Option.some.inj e).symm
  · have := marks '?' (by decide)
    exact decide_eq_false this
  · have := marks '@' (by decide)
    exact beq_false_of_ne fun e => this (Option.some.inj e).symm
  · have := marks ':' (by decide)
    exact beq_false_of_ne fun e => this (Option.some.inj e).symm

theorem isPlain_start : (start b.dialect c).isPlain = true := by
  have opening := openingQuote_ne_plain b plain
  have apostrophe := apostrophe_ne_plain plain
  have mark := opensPlaceholder_plain b plain
  rw [start, if_neg opening, if_neg apostrophe, mark]
  repeat' split
  all_goals first | rfl | contradiction

theorem isPlain_extend? {mode next : Mode} (before : mode.isPlain = true)
    (extended : extend? b.dialect mode c = some next) : next.isPlain = true := by
  have apostrophe := apostrophe_ne_plain plain
  cases mode with
  | blank | symbol => cases extended
  | operator | word | number | national =>
    simp only [extend?, if_neg apostrophe] at extended
    split at extended
    · exact Option.some.inj extended ▸ rfl
    · cases extended
  | _ => cases before

end Plain

theorem scan_plain (b : Backend) {mode : Mode} {cs : List Char} (before : mode.isPlain = true)
    (plain : ∀ c ∈ cs, isPlainChar c = true) (read : List Char) :
    (∀ l ∈ scan b.dialect mode read cs, l.mode.isPlain = true) ∧
      (scanEnd b.dialect mode cs).isPlain = true := by
  induction cs generalizing mode read with
  | nil => exact ⟨by simpa [scan] using before, before⟩
  | cons c cs ih =>
    have here : isPlainChar c = true := plain c List.mem_cons_self
    have rest : ∀ e ∈ cs, isPlainChar e = true := fun e he => plain e (List.mem_cons_of_mem c he)
    cases extended : extend? b.dialect mode c with
    | some next =>
      have after := isPlain_extend? b here before extended
      simpa [scan, scanEnd, extended] using ih after rest (read ++ [c])
    | none =>
      have after := isPlain_start b here
      simpa [scan, scanEnd, extended, before] using ih after rest [c]

/-- Fixed words hold no names, texts and placeholders, and leave no quote open. -/
theorem lexemes_plain (b : Backend) {cs : List Char} (plain : ∀ c ∈ cs, isPlainChar c = true) :
    (∀ l ∈ lexemes b.dialect cs, l.mode.isPlain = true) ∧
      (lastMode b.dialect cs).isPlain = true := by
  cases cs with
  | nil => exact ⟨by simp [lexemes], rfl⟩
  | cons c cs =>
    have first := isPlain_start b (plain c List.mem_cons_self)
    exact scan_plain b first (fun e he => plain e (List.mem_cons_of_mem c he)) [c]

end DocTable.Sql
