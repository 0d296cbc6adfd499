import DocTable.Dialect.Basic

/-!
# Lexemes of SQL text

Text is cut into lexemes from left to right: each character goes on with the
lexeme before it or starts the next one (`scan`). Nothing is lost by cutting
(`join_lexemes`), and two texts are cut one by one when the second does not go
on with the last lexeme of the first (`lexemes_append`).
-/

namespace DocTable.Sql
set_option autoImplicit false
open Quoting (apostrophe backslash)

/-- What has been read of a lexeme. -/
inductive Mode where
  | blank
  | symbol
  /-- A sign of comparison; two make one operator. -/
  | operator
  | word
  /-- An `N`, where it may open a text. -/
  | national
  /-- A sign or digit, and digits and points after it. -/
  | number
  | placeholder
  | name
  /-- After the closing quote of a name, which another one would double. -/
  | nameEnd
  | text
  | textEscape
  | textEnd
  deriving DecidableEq, Repr

structure Lexeme where
  mode : Mode
  chars : List Char
  deriving DecidableEq, Repr

def isWordChar (c : Char) : Bool := c.isAlphanum || c = '_'

def isOperatorChar (c : Char) : Bool := c = '<' || c = '>' || c = '='

/-- Whether a character opens a placeholder. -/
def opensPlaceholder : PlaceholderStyle → Char → Bool
  | .question, c => c = '?'
  | .numbered mark, c => mark.toList.head? == some c

/-- Whether a character goes on with a placeholder. -/
def extendsPlaceholder : PlaceholderStyle → Char → Bool
  | .question, _ => false
  | .numbered _, c => c.isAlphanum

/-- What a character is at the start of a lexeme. -/
def start (d : Dialect) (c : Char) : Mode :=
  if c = d.openingQuote then .name
  else if c = apostrophe then .text
  else if opensPlaceholder d.placeholders c then .placeholder
  else if c = 'N' && d.texts = .national then .national
  else if c.isDigit || c = '-' then .number
  else if isWordChar c then .word
  else if isOperatorChar c then .operator
  else if c.isWhitespace then .blank
  else .symbol

/-- The lexeme with one more character, if it goes on with that. -/
def extend? (d : Dialect) : Mode → Char → Option Mode
  | .blank, _ | .symbol, _ => none
  | .operator, c => if isOperatorChar c then some .operator else none
  | .word, c => if isWordChar c then some .word else none
  | .national, c =>
    if c = apostrophe then some .text else if isWordChar c then some .word else none
  | .number, c => if c.isDigit || c = '.' then some .number else none
  | .placeholder, c => if extendsPlaceholder d.placeholders c then some .placeholder else none
  | .name, c => some (if c = d.closingQuote then .nameEnd else .name)
  | .nameEnd, c => if c = d.closingQuote then some .name else none
  | .text, c =>
    some (if c = apostrophe then .textEnd
      else if c = backslash && d.texts = .backslash then .textEscape
      else .text)
  | .textEscape, _ => some .text
  | .textEnd, c => if c = apostrophe then some .text else none

/-- Cuts what follows a lexeme that is partly read. -/
def scan (d : Dialect) (mode : Mode) (read : List Char) : List Char → List Lexeme
  | [] => [⟨mode, read⟩]
  | c :: cs =>
    match extend? d mode c with
    | some next => scan d next (read ++ [c]) cs
    | none => ⟨mode, read⟩ :: scan d (start d c) [c] cs

def lexemes (d : Dialect) : List Char → List Lexeme
  | [] => []
  | c :: cs => scan d (start d c) [c] cs

/-- The mode that a scan ends in. -/
def scanEnd (d : Dialect) (mode : Mode) : List Char → Mode
  | [] => mode
  | c :: cs => scanEnd d ((extend? d mode c).getD (start d c)) cs

/-- The mode of the last lexeme; that of a blank when there is none. -/
def lastMode (d : Dialect) : List Char → Mode
  | [] => .blank
  | c :: cs => scanEnd d (start d c) cs

/-! ## Cutting loses nothing -/

theorem join_scan (d : Dialect) (mode : Mode) (read cs : List Char) :
    (scan d mode read cs).flatMap Lexeme.chars = read ++ cs := by
  induction cs generalizing mode read with
  | nil => simp [scan]
  | cons c cs ih =>
    rw [scan]
    cases extend? d mode c with
    | some next => simp [ih]
    | none => simp [ih]

theorem join_lexemes (d : Dialect) (cs : List Char) :
    (lexemes d cs).flatMap Lexeme.chars = cs := by
  cases cs with
  | nil => rfl
  | cons c cs => exact join_scan d (start d c) [c] cs

/-! ## Cutting text part by part -/

theorem scan_append {d : Dialect} {mode : Mode} {front back : List Char}
    (apart : ∀ c ∈ back.head?, extend? d (scanEnd d mode front) c = none) (read : List Char) :
    scan d mode read (front ++ back) = scan d mode read front ++ lexemes d back := by
  induction front generalizing mode read with
  | nil =>
    cases back with
    | nil => simp [scan, lexemes]
    | cons b bs =>
      have stop : extend? d mode b = none := apart b rfl
      simp [scan, lexemes, stop]
  | cons c cs ih =>
    rw [List.cons_append, scan, scan]
    cases extended : extend? d mode c with
    | some next =>
      have later : ∀ e ∈ back.head?, extend? d (scanEnd d next cs) e = none := by
        simpa [scanEnd, extended] using apart
      exact ih later (read ++ [c])
    | none =>
      have later : ∀ e ∈ back.head?, extend? d (scanEnd d (start d c) cs) e = none := by
        simpa [scanEnd, extended] using apart
      simp [ih later [c]]

/-- Text that does not go on with the last lexeme before it is cut by itself. -/
theorem lexemes_append {d : Dialect} {front back : List Char}
    (apart : ∀ c ∈ back.head?, extend? d (lastMode d front) c = none) :
    lexemes d (front ++ back) = lexemes d front ++ lexemes d back := by
  cases front with
  | nil => simp [lexemes]
  | cons c cs => exact scan_append apart [c]

theorem scanEnd_append (d : Dialect) (mode : Mode) (front : List Char) (c : Char)
    (back : List Char) (apart : extend? d (scanEnd d mode front) c = none) :
    scanEnd d mode (front ++ c :: back) = lastMode d (c :: back) := by
  induction front generalizing mode with
  | nil =>
    have stop : extend? d mode c = none := apart
    simp [scanEnd, lastMode, stop]
  | cons b bs ih => exact ih ((extend? d mode b).getD (start d b)) apart

/-- The last lexeme of two texts that are cut apart is the one of the second. -/
theorem lastMode_append {d : Dialect} {front back : List Char} (nonempty : back ≠ [])
    (apart : ∀ c ∈ back.head?, extend? d (lastMode d front) c = none) :
    lastMode d (front ++ back) = lastMode d back := by
  cases back with
  | nil => exact absurd rfl nonempty
  | cons b bs =>
    cases front with
    | nil => rfl
    | cons c cs => exact scanEnd_append d (start d c) cs b bs (apart b rfl)

/-! ## Text that is one lexeme -/

/-- The mode after characters that all go on with the same lexeme. -/
def run? (d : Dialect) (mode : Mode) (cs : List Char) : Option Mode := cs.foldlM (extend? d) mode

@[simp] theorem run?_nil (d : Dialect) (mode : Mode) : run? d mode [] = some mode := rfl

@[simp] theorem run?_cons (d : Dialect) (mode : Mode) (c : Char) (cs : List Char) :
    run? d mode (c :: cs) = (extend? d mode c).bind fun next => run? d next cs := rfl

theorem run?_append {d : Dialect} {mode between : Mode} {front : List Char}
    (run : run? d mode front = some between) (back : List Char) :
    run? d mode (front ++ back) = run? d between back := by
  unfold run? at run ⊢
  rw [List.foldlM_append, run]
  rfl

/-- Characters that all leave a mode as it is. -/
theorem run?_of_forall {d : Dialect} {mode : Mode} {cs : List Char}
    (stays : ∀ c ∈ cs, extend? d mode c = some mode) : run? d mode cs = some mode := by
  induction cs with
  | nil => rfl
  | cons c cs ih =>
    have here : extend? d mode c = some mode := stays c List.mem_cons_self
    have rest := ih fun b hb => stays b (List.mem_cons_of_mem c hb)
    simpa [here] using rest

theorem scan_of_run {d : Dialect} {mode last : Mode} {cs : List Char}
    (run : run? d mode cs = some last) (read : List Char) :
    scan d mode read cs = [⟨last, read ++ cs⟩] ∧ scanEnd d mode cs = last := by
  induction cs generalizing mode read with
  | nil =>
    obtain rfl : mode = last := by simpa using run
    simp [scan, scanEnd]
  | cons c cs ih =>
    cases extended : extend? d mode c with
    | none => simp [extended] at run
    | some next =>
      have rest : run? d next cs = some last := by simpa [extended] using run
      have h := ih rest (read ++ [c])
      simpa [scan, scanEnd, extended] using h

/-- Text that is one lexeme. -/
structure Single (d : Dialect) (mode : Mode) (cs : List Char) : Prop where
  lexemes : lexemes d cs = [⟨mode, cs⟩]
  lastMode : lastMode d cs = mode

/-- Text whose characters all go on with the first one is a single lexeme. -/
theorem Single.of_run {d : Dialect} {c : Char} {mode last : Mode} {cs : List Char}
    (first : start d c = mode) (run : run? d mode cs = some last) : Single d last (c :: cs) := by
  subst first
  obtain ⟨cut, stop⟩ := scan_of_run run [c]
  exact ⟨cut, stop⟩

end DocTable.Sql
