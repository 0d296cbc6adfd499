import DocTable.Dialect.Basic

/-!
# Statements

A statement is composed of pieces: words, names and operands. Only when the
pieces are written is it decided how: an operand becomes a placeholder, whose
value is then bound, or a literal. Null is always a literal, because a null
without a type is not accepted as a bound value everywhere.
-/

namespace DocTable
set_option autoImplicit false

inductive Piece where
  /-- Fixed text. -/
  | word (s : String)
  /-- A column's name. -/
  | column (key : String)
  /-- A table's name. -/
  | table (name : String)
  /-- A value of the request. -/
  | operand (v : SqlValue)
  /-- A value that is never bound. -/
  | constant (v : SqlValue)
  deriving DecidableEq, Repr

abbrev Fragment := List Piece

/-- How pieces are written: by whose rules, and whether operands become literals. -/
structure Style where
  dialect : Dialect
  inline : Bool
  deriving DecidableEq, Repr

/-- The style of a dialect. One that cannot bind values writes them as literals. -/
def Style.of (d : Dialect) (inline : Bool) : Style := ⟨d, inline || !d.binds⟩

/-- Whether a value is bound when it is an operand. -/
def Style.binds (style : Style) (v : SqlValue) : Bool := !style.inline && !v.isNull

namespace Piece

/-- The values that a piece binds. -/
def bound (style : Style) : Piece → List SqlValue
  | .operand v => if style.binds v then [v] else []
  | _ => []

/-- A piece as text when `before` values are bound already. -/
def text (style : Style) (before : Nat) : Piece → String
  | .word s => s
  | .column key => style.dialect.quoteName key
  | .table name => style.dialect.quoteTable name
  | .operand v =>
    if style.binds v then style.dialect.placeholder (before + 1) else style.dialect.literal v
  | .constant v => style.dialect.literal v

end Piece

namespace Fragment

/-- The values that a fragment binds, in the order of their placeholders. -/
def bound (style : Style) (ps : Fragment) : List SqlValue := ps.flatMap (Piece.bound style)

/-- A fragment as text when `before` values are bound already. -/
def text (style : Style) : Nat → Fragment → String
  | _, [] => ""
  | before, p :: ps => p.text style before ++ text style (before + (p.bound style).length) ps

/-- The operands of a fragment, nulls included. -/
def operands : Fragment → List SqlValue
  | [] => []
  | .operand v :: ps => v :: operands ps
  | _ :: ps => operands ps

/-- Fragments with a word between each two. -/
def separatedBy (separator : String) : List Fragment → Fragment
  | [] => []
  | [f] => f
  | f :: g :: fs => f ++ .word separator :: separatedBy separator (g :: fs)

def commas (fs : List Fragment) : Fragment := separatedBy ", " fs

def parenthesized (f : Fragment) : Fragment := .word "(" :: f ++ [.word ")"]

/-- Text is written piece by piece; what follows counts the values bound before it. -/
theorem text_append (style : Style) (before : Nat) (ps qs : Fragment) :
    text style before (ps ++ qs) =
      text style before ps ++ text style (before + (bound style ps).length) qs := by
  induction ps generalizing before with
  | nil => simp [text, bound]
  | cons p ps ih =>
    simp only [List.cons_append, text, ih, bound, List.flatMap_cons, List.length_append,
      String.append_assoc, Nat.add_assoc]

/-- What is bound are the operands that the style binds. -/
theorem bound_eq_filter (style : Style) (ps : Fragment) :
    bound style ps = (operands ps).filter style.binds := by
  induction ps with
  | nil => rfl
  | cons p ps ih =>
    cases p with
    | operand v =>
      simp only [bound, operands, List.flatMap_cons, List.filter_cons, Piece.bound] at ih ⊢
      rw [ih]
      split <;> simp
    | word _ | column _ | table _ | constant _ => simpa [bound, operands, Piece.bound] using ih

/-- What is read off fragments in their order, and is nothing for a separator, is read off a
separated list part by part. -/
theorem read_separatedBy {α : Type} {read : Fragment → List α}
    (append : ∀ f g, read (f ++ g) = read f ++ read g) {separator : String}
    (word : read [.word separator] = []) (fs : List Fragment) :
    read (separatedBy separator fs) = fs.flatMap read := by
  induction fs with
  | nil => exact List.self_eq_append_right.mp (append [] [])
  | cons f fs ih =>
    cases fs with
    | nil => exact (List.append_nil _).symm
    | cons g gs =>
      show read (f ++ ([.word separator] ++ separatedBy separator (g :: gs))) = _
      rw [append, append, word, ih]
      rfl

end Fragment

/-- A statement's text and the values of its placeholders. -/
structure Statement where
  sql : String
  params : List SqlValue
  deriving DecidableEq, Repr, Inhabited

def Fragment.statement (style : Style) (f : Fragment) : Statement :=
  ⟨f.text style 0, f.bound style⟩

end DocTable
