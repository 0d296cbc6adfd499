import DocTable.Proofs.Statement.Sites

/-!
# Literals in place of placeholders

Putting values in the place of placeholders replaces lexemes and not characters, so what a
quoted text holds stays as it is. A fragment that is written with placeholders becomes the
one that is written with literals (`substituteFrom_lexemes`).
-/

namespace DocTable
set_option autoImplicit false

namespace Sql

/-- The text of lexemes, with the literals of values in place of the placeholders, the k-th
value for the k-th placeholder. -/
def substituteFrom (d : Dialect) : List SqlValue → List Lexeme → List Char
  | _, [] => []
  | values, l :: ls =>
    if l.mode = .placeholder then
      (values.head?.map fun v => (d.literal v).toList).getD l.chars ++
        substituteFrom d values.tail ls
    else l.chars ++ substituteFrom d values ls

/-- A text with values in place of its placeholders. -/
def substitute (d : Dialect) (values : List SqlValue) (sql : String) : String :=
  String.ofList (substituteFrom d values (lexemes d sql.toList))

/-- What holds no placeholder is left as it is. -/
theorem substituteFrom_append {d : Dialect} {ls : List Lexeme}
    (none : ∀ l ∈ ls, l.mode ≠ .placeholder) (values : List SqlValue) (more : List Lexeme) :
    substituteFrom d values (ls ++ more) =
      ls.flatMap Lexeme.chars ++ substituteFrom d values more := by
  induction ls with
  | nil => rfl
  | cons l ls ih =>
    have rest := ih fun m hm => none m (List.mem_cons_of_mem l hm)
    rw [List.cons_append, substituteFrom, if_neg (none l List.mem_cons_self), rest,
      List.flatMap_cons, List.append_assoc]

theorem substituteFrom_nil (d : Dialect) (ls : List Lexeme) :
    substituteFrom d [] ls = ls.flatMap Lexeme.chars := by
  induction ls with
  | nil => rfl
  | cons l ls ih =>
    rw [substituteFrom, List.tail_nil, ih, List.flatMap_cons]
    split <;> rfl

/-- Without values a text is left as it is. -/
theorem substitute_nil (d : Dialect) (sql : String) : substitute d [] sql = sql := by
  rw [substitute, substituteFrom_nil, join_lexemes, String.ofList_toList]

end Sql

/-- The statement with its values written in. -/
def Statement.inlined (d : Dialect) (s : Statement) : Statement :=
  ⟨Sql.substitute d s.params s.sql, []⟩

/-- A piece that binds nothing is written the same in every style of its dialect. -/
theorem Piece.text_unbound {style : Style} {p : Piece} (none : p.bound style = [])
    (before other : Nat) : p.text style before = p.text ⟨style.dialect, true⟩ other := by
  cases p with
  | operand v =>
    cases binds : style.binds v with
    | true => simp [Piece.bound, binds] at none
    | false =>
      rw [text, text, binds]
      rfl
  | _ => rfl

namespace Fragment

variable (b : Backend) {style : Style} (hb : style.dialect = b.dialect)
include hb

theorem substituteFrom_lexemes {f : Fragment} (plain : ∀ p ∈ f, p.isPlain = true)
    (before other : Nat) :
    Sql.substituteFrom style.dialect (f.bound style) (f.lexemes style before) =
      (f.text ⟨style.dialect, true⟩ other).toList := by
  induction f generalizing before other with
  | nil => rfl
  | cons p ps ih =>
    have here := plain p List.mem_cons_self
    have rest := ih fun q hq => plain q (List.mem_cons_of_mem p hq)
    rw [lexemes, text, String.toList_append]
    cases none : p.bound style with
    | nil =>
      have sameBound : bound style (p :: ps) = bound style ps := by
        rw [bound, List.flatMap_cons, none]
        rfl
      rw [Sql.substituteFrom_append (Piece.not_placeholder b hb here none before), sameBound,
        rest, Piece.lexemes, Sql.join_lexemes, Piece.text_unbound none before other]
    | cons v vs =>
      cases p with
      | operand w =>
        have binds : style.binds w = true := by
          cases h : style.binds w with
          | true => rfl
          | false => simp [Piece.bound, h] at none
        have sameBound : bound style (.operand w :: ps) = w :: bound style ps := by
          simp [bound, Piece.bound, binds]
        rw [Piece.lexemes_bound b hb binds, sameBound, List.cons_append, Sql.substituteFrom,
          if_pos rfl]
        exact congrArg ((style.dialect.literal w).toList ++ ·) (rest _ _)
      | _ => cases none

/-- The statement with literals is the one with bound values, with the values written in. -/
theorem statement_inline {f : Fragment} (spaced : f.WellSpaced) :
    f.statement ⟨style.dialect, true⟩ = (f.statement style).inlined style.dialect := by
  have text : f.text ⟨style.dialect, true⟩ 0 =
      Sql.substitute style.dialect (f.bound style) (f.text style 0) := by
    rw [Sql.substitute, lexemes_text b hb spaced, substituteFrom_lexemes b hb spaced.plain 0 0,
      String.ofList_toList]
  have none : f.bound ⟨style.dialect, true⟩ = [] := by
    rw [bound_eq_filter]
    exact List.filter_eq_nil_iff.mpr fun v _ => by simp [Style.binds]
  rw [statement, statement, Statement.inlined, text, none]

end Fragment
end DocTable
