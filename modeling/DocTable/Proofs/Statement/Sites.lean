import DocTable.Proofs.Sql.Sites
import DocTable.Proofs.Statement.Spacing

/-!
# The columns of a fragment's operands

Reading the text of a fragment for its placeholders gives the operands that are bound,
in their order and each with its column (`sitesFrom_lexemes`).
-/

namespace DocTable
set_option autoImplicit false
open Sql (Place)

namespace Piece

/-- The place after a piece. -/
def placeAfter (d : Dialect) (place : Place) : Piece → Place
  | .word s => place.after d (Sql.lexemes d s.toList)
  | .column key => place.next d (Sql.nameLexeme d key)
  | .table name => place.after d (Sql.tableLexemes d (Text.split '.' name))
  | .operand _ | .constant _ => place

/-- The operand of a piece with its column. -/
def sites (place : Place) : Piece → List (String × SqlValue)
  | .operand v => [(place.column, v)]
  | _ => []

end Piece

namespace Fragment

/-- The place after a fragment. -/
def placeAfter (d : Dialect) (place : Place) (f : Fragment) : Place :=
  f.foldl (Piece.placeAfter d) place

/-- The operands of a fragment, each with the column it goes to. -/
def sites (d : Dialect) : Place → Fragment → List (String × SqlValue)
  | _, [] => []
  | place, p :: ps => p.sites place ++ sites d (p.placeAfter d place) ps

/-- The placeholders of operands when `before` values are bound already. -/
def numbered (style : Style) (before : Nat) (operands : List (String × SqlValue)) :
    List (String × String) :=
  (operands.filter fun s => style.binds s.2).mapIdx fun i s =>
    (s.1, style.dialect.placeholder (before + i + 1))

theorem placeAfter_append (d : Dialect) (place : Place) (f g : Fragment) :
    (f ++ g).placeAfter d place = g.placeAfter d (f.placeAfter d place) :=
  List.foldl_append

theorem sites_append (d : Dialect) (place : Place) (f g : Fragment) :
    (f ++ g).sites d place = f.sites d place ++ g.sites d (f.placeAfter d place) := by
  induction f generalizing place with
  | nil => rfl
  | cons p ps ih => simp [sites, placeAfter, ih]

theorem numbered_append (style : Style) (before : Nat) (xs ys : List (String × SqlValue)) :
    numbered style before (xs ++ ys) = numbered style before xs ++
      numbered style (before + (xs.filter fun s => style.binds s.2).length) ys := by
  simp only [numbered, List.filter_append, List.mapIdx_append]
  congr 2
  funext i s
  congr 2
  omega

theorem map_snd_sites (d : Dialect) (place : Place) (f : Fragment) :
    (f.sites d place).map Prod.snd = f.operands := by
  induction f generalizing place with
  | nil => rfl
  | cons p ps ih => cases p <;> simp [sites, Piece.sites, operands, ih]

end Fragment

/-! ## Reading the lexemes of a piece -/

namespace Piece

theorem lexemes_unbound {style : Style} {v : SqlValue} (unbound : style.binds v = false)
    (before : Nat) :
    (operand v).lexemes style before =
      Sql.lexemes style.dialect (style.dialect.literal v).toList := by
  rw [lexemes, text, unbound]
  rfl

variable (b : Backend) {style : Style} (hb : style.dialect = b.dialect)
include hb

/-- A literal is one value. -/
theorem lexemes_literal (v : SqlValue) :
    ∃ l : Sql.Lexeme, Sql.lexemes style.dialect (style.dialect.literal v).toList = [l] ∧
      l.mode ≠ .placeholder ∧ l.mode ≠ .nameEnd ∧ l.mode ≠ .symbol := by
  rw [hb]
  refine ⟨_, (Sql.single_literal b v).lexemes, ?_⟩
  have h := Sql.literalMode_mem b v
  simp only [List.mem_cons, List.not_mem_nil, or_false] at h
  show Sql.literalMode b.dialect v ≠ _ ∧ _
  rcases h with h | h | h <;> rw [h] <;> exact ⟨nofun, nofun, nofun⟩

theorem lexemes_bound {v : SqlValue} (bound : style.binds v = true) (before : Nat) :
    (operand v).lexemes style before =
      [⟨.placeholder, (style.dialect.placeholder (before + 1)).toList⟩] := by
  rw [lexemes, text, if_pos bound, hb]
  exact (Sql.single_placeholder b (before + 1)).lexemes

theorem after_lexemes (p : Piece) (before : Nat) (place : Place) :
    place.after style.dialect (p.lexemes style before) = p.placeAfter style.dialect place := by
  cases p with
  | word s => rfl
  | column key =>
    rw [lexemes, text, (Sql.single_quoteName style.dialect key).lexemes, Sql.toList_quoteName]
    rfl
  | table name =>
    rw [lexemes, text, hb, (Sql.lexemes_quoteTable b name).1]
    rfl
  | operand v =>
    cases bound : style.binds v with
    | true =>
      rw [lexemes_bound b hb bound]
      exact Place.next_value style.dialect place (by simp) (by simp)
    | false =>
      obtain ⟨l, cut, -, notName, notSymbol⟩ := lexemes_literal b hb v
      rw [lexemes_unbound bound, cut]
      exact Place.next_value style.dialect place notName notSymbol
  | constant v =>
    obtain ⟨l, cut, -, notName, notSymbol⟩ := lexemes_literal b hb v
    rw [lexemes, text, cut]
    exact Place.next_value style.dialect place notName notSymbol

/-- Only an operand that is bound has a placeholder. -/
theorem not_placeholder {p : Piece} (plain : p.isPlain = true) (none : p.bound style = [])
    (before : Nat) : ∀ l ∈ p.lexemes style before, l.mode ≠ .placeholder := by
  cases p with
  | word s =>
    obtain ⟨-, chars⟩ := plain_of_isPlain plain
    intro l hl e
    rw [lexemes, text, hb] at hl
    have h := (Sql.lexemes_plain b chars).1 l hl
    rw [e] at h
    cases h
  | column key =>
    rw [lexemes, text, (Sql.single_quoteName style.dialect key).lexemes]
    simp
  | table name =>
    intro l hl e
    rw [lexemes, text, hb, (Sql.lexemes_quoteTable b name).1] at hl
    rcases Sql.mode_of_mem_tableLexemes hl with h | h <;> rw [e] at h <;> cases h
  | operand v =>
    have unbound : style.binds v = false := by
      cases h : style.binds v with
      | true => simp [bound, h] at none
      | false => rfl
    obtain ⟨l, cut, notPlaceholder, -⟩ := lexemes_literal b hb v
    rw [lexemes_unbound unbound, cut]
    simpa using notPlaceholder
  | constant v =>
    obtain ⟨l, cut, notPlaceholder, -⟩ := lexemes_literal b hb v
    rw [lexemes, text, cut]
    simpa using notPlaceholder

theorem sitesFrom_piece {p : Piece} (plain : p.isPlain = true) (before : Nat) (place : Place) :
    Sql.sitesFrom style.dialect place (p.lexemes style before) =
      Fragment.numbered style before (p.sites place) := by
  cases bound : p.bound style with
  | nil =>
    rw [Sql.sitesFrom_of_forall (not_placeholder b hb plain bound before)]
    cases p with
    | operand v =>
      have unbound : style.binds v = false := by
        cases h : style.binds v with
        | true => simp [Piece.bound, h] at bound
        | false => rfl
      simp [sites, Fragment.numbered, unbound]
    | _ => rfl
  | cons v vs =>
    cases p with
    | operand w =>
      have bound : style.binds w = true := by
        cases h : style.binds w with
        | true => rfl
        | false => simp [Piece.bound, h] at bound
      rw [lexemes_bound b hb bound]
      simp [Sql.sitesFrom, sites, Fragment.numbered, bound, Sql.Lexeme.text]
    | _ => cases bound

end Piece

namespace Fragment

variable (b : Backend) {style : Style} (hb : style.dialect = b.dialect)
include hb

/-- The lexemes of a fragment are read as its operands, those that are bound. -/
theorem sitesFrom_lexemes {f : Fragment} (plain : ∀ p ∈ f, p.isPlain = true) (before : Nat)
    (place : Place) :
    Sql.sitesFrom style.dialect place (f.lexemes style before) =
      numbered style before (f.sites style.dialect place) := by
  induction f generalizing before place with
  | nil => rfl
  | cons p ps ih =>
    have here := Piece.sitesFrom_piece b hb (plain p List.mem_cons_self) before place
    have count : (p.bound style).length =
        ((p.sites place).filter fun s => style.binds s.2).length := by
      cases p with
      | operand v =>
        by_cases h : style.binds v = true <;> simp [Piece.bound, Piece.sites, h]
      | _ => rfl
    rw [lexemes, sites, Sql.sitesFrom_append, here, Piece.after_lexemes b hb, numbered_append,
      count, ih fun q hq => plain q (List.mem_cons_of_mem p hq)]

end Fragment
end DocTable
