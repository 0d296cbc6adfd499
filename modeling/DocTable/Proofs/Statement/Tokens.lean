import DocTable.Proofs.Sql.Reading
import DocTable.Proofs.Statement.Sites

/-!
# Tokens and items of a fragment

The tokens of a fragment are those of its pieces (`tokens_append`): a name, a word's tokens,
or one operand, which is a placeholder with its position in the statement or a literal.
-/

namespace DocTable
set_option autoImplicit false
open Sql (Token Item)

/-- A value as an operand when `before` values are bound already. -/
def Operand.of (style : Style) (before : Nat) (v : SqlValue) : Operand :=
  if style.binds v then .placeholder (before + 1) else .ofLiteral style.dialect v

/-- The tokens of a piece when `before` values are bound already. -/
def Piece.tokens (style : Style) (before : Nat) (p : Piece) : List Token :=
  Sql.tokens style.dialect before (p.lexemes style before)

/-- The tokens of a fragment when `before` values are bound already. -/
def Fragment.tokens (style : Style) (before : Nat) (f : Fragment) : List Token :=
  Sql.tokens style.dialect before (f.lexemes style before)

section Backend

variable (b : Backend) {style : Style} (hb : style.dialect = b.dialect)
include hb

namespace Piece

theorem countPlaceholders_lexemes {p : Piece} (plain : p.isPlain = true) (before : Nat) :
    Sql.countPlaceholders (p.lexemes style before) = (p.bound style).length := by
  cases bound : p.bound style with
  | nil =>
    apply List.countP_eq_zero.mpr
    intro l hl
    simpa using not_placeholder b hb plain bound before l hl
  | cons v vs =>
    cases p with
    | operand w =>
      have binds : style.binds w = true := by
        cases h : style.binds w with
        | true => rfl
        | false => simp [Piece.bound, h] at bound
      rw [lexemes_bound b hb binds, ← bound]
      simp [Piece.bound, binds, Sql.countPlaceholders]
    | _ => cases bound

omit hb in
theorem tokens_column (style : Style) (before : Nat) (key : String) :
    (column key).tokens style before = [.name key] := by
  rw [tokens, lexemes, text, (Sql.single_quoteName style.dialect key).lexemes,
    Sql.toList_quoteName]
  show [Sql.Lexeme.token style.dialect before (Sql.nameLexeme style.dialect key)] = _
  rw [Sql.token_name]

/-- An operand is one token, which is read as that operand. -/
theorem tokens_operand (before : Nat) (v : SqlValue) :
    ∃ t : Token, (operand v).tokens style before = [t] ∧
      t.operand? = some (Operand.of style before v) := by
  rw [tokens, Operand.of]
  cases binds : style.binds v with
  | true =>
    refine ⟨.value (.placeholder (before + 1)), ?_, rfl⟩
    rw [lexemes_bound b hb binds]
    show [Token.value (.placeholder (Sql.position _ before ⟨.placeholder, _⟩))] = _
    rw [Sql.position_placeholder]
  | false =>
    refine ⟨_, ?_, Sql.operand?_literal b before v |>.trans (by rw [hb]; rfl)⟩
    rw [lexemes_unbound binds, hb, (Sql.single_literal b v).lexemes, Sql.tokens, Sql.tokens,
      if_neg]
    · rfl
    · intro blank
      have mode := Sql.literalMode_mem b v
      rw [show Sql.literalMode b.dialect v = .blank from blank] at mode
      revert mode
      decide

theorem tokens_text (before : Nat) (s : String) :
    (constant (.text s)).tokens style before = [.value (.text s)] := by
  rw [tokens, lexemes, text, hb, (Sql.single_literal b (.text s)).lexemes]
  show [Token.value (.text (b.dialect.decodeText (String.ofList (b.dialect.quoteText s).toList)))]
    = _
  rw [String.ofList_toList, Dialect.decodeText, Dialect.unquoteText?_quoteText]
  rfl

end Piece

namespace Fragment

theorem countPlaceholders_lexemes {f : Fragment} (plain : ∀ p ∈ f, p.isPlain = true)
    (before : Nat) : Sql.countPlaceholders (f.lexemes style before) = (f.bound style).length := by
  induction f generalizing before with
  | nil => rfl
  | cons p ps ih =>
    have here := Piece.countPlaceholders_lexemes b hb (plain p List.mem_cons_self) before
    have rest := ih (fun q hq => plain q (List.mem_cons_of_mem p hq))
      (before + (p.bound style).length)
    rw [lexemes, Sql.countPlaceholders, List.countP_append, ← Sql.countPlaceholders,
      ← Sql.countPlaceholders, here, rest]
    simp [bound]

omit hb in
theorem lexemes_append (style : Style) (before : Nat) (f g : Fragment) :
    (f ++ g).lexemes style before =
      f.lexemes style before ++ g.lexemes style (before + (f.bound style).length) := by
  induction f generalizing before with
  | nil => simp [lexemes, bound]
  | cons p ps ih =>
    simp only [List.cons_append, lexemes, ih, bound, List.flatMap_cons, List.length_append,
      List.append_assoc, Nat.add_assoc]

theorem tokens_append {f : Fragment} (plain : ∀ p ∈ f, p.isPlain = true) (before : Nat)
    (g : Fragment) :
    (f ++ g).tokens style before =
      f.tokens style before ++ g.tokens style (before + (f.bound style).length) := by
  rw [tokens, lexemes_append, Sql.tokens_append, countPlaceholders_lexemes b hb plain]
  rfl

end Fragment
end Backend
end DocTable
