import DocTable.Statement.Basic

/-!
# Fragments without their values

Masking a fragment puts one and the same value in the place of every operand that is not
null. Where operands are bound this changes nothing in the text and not the number of bound
values, so fragments that are alike once they are masked have the same text
(`Fragment.statement_of_masked`).
-/

namespace DocTable
set_option autoImplicit false

/-- One value for all that are not null. -/
def SqlValue.masked : SqlValue → SqlValue
  | .null => .null
  | _ => .text ""

@[simp] theorem SqlValue.isNull_masked (v : SqlValue) : v.masked.isNull = v.isNull := by
  cases v <;> rfl

theorem Style.binds_masked (style : Style) (v : SqlValue) :
    style.binds v.masked = style.binds v := by
  rw [binds, binds, SqlValue.isNull_masked]

namespace Piece

def masked : Piece → Piece
  | .operand v => .operand v.masked
  | p => p

theorem length_bound_masked (style : Style) (p : Piece) :
    (p.masked.bound style).length = (p.bound style).length := by
  cases p with
  | operand v =>
    rw [masked, bound, bound, Style.binds_masked]
    cases style.binds v <;> rfl
  | word _ | column _ | table _ | constant _ => rfl

/-- A bound operand is written as its placeholder, and what is not bound is null. -/
theorem text_masked {style : Style} (bindsValues : style.inline = false) (before : Nat)
    (p : Piece) : p.masked.text style before = p.text style before := by
  cases p with
  | operand v =>
    rw [masked, text, text, Style.binds_masked]
    cases v with
    | null => rfl
    | _ => simp [Style.binds, bindsValues, SqlValue.isNull]
  | word _ | column _ | table _ | constant _ => rfl

end Piece

namespace Fragment

def masked (f : Fragment) : Fragment := f.map Piece.masked

theorem masked_append (f g : Fragment) : masked (f ++ g) = masked f ++ masked g :=
  List.map_append

theorem masked_cons (p : Piece) (f : Fragment) : masked (p :: f) = p.masked :: masked f := rfl

theorem masked_separatedBy (separator : String) (fs : List Fragment) :
    masked (separatedBy separator fs) = separatedBy separator (fs.map masked) := by
  induction fs with
  | nil => rfl
  | cons f fs ih =>
    cases fs with
    | nil => rfl
    | cons g gs =>
      rw [separatedBy, masked_append, masked_cons, ih]
      rfl

theorem masked_commas (fs : List Fragment) : masked (commas fs) = commas (fs.map masked) :=
  masked_separatedBy ", " fs

theorem masked_parenthesized (f : Fragment) :
    masked (parenthesized f) = parenthesized (masked f) := by
  simp [parenthesized, masked, Piece.masked]

theorem length_bound_masked (style : Style) (f : Fragment) :
    (bound style f.masked).length = (bound style f).length := by
  induction f with
  | nil => rfl
  | cons p f ih =>
    simp only [bound, masked_cons, List.flatMap_cons, List.length_append] at ih ⊢
    rw [Piece.length_bound_masked, ih]

theorem text_masked {style : Style} (bindsValues : style.inline = false) (before : Nat)
    (f : Fragment) : text style before f.masked = text style before f := by
  induction f generalizing before with
  | nil => rfl
  | cons p f ih =>
    rw [masked_cons, text, text, Piece.text_masked bindsValues, Piece.length_bound_masked, ih]

/-- What is bound leaves no trace in a statement's text. -/
theorem statement_of_masked {style : Style} (bindsValues : style.inline = false)
    {f g : Fragment} (same : f.masked = g.masked) :
    (f.statement style).sql = (g.statement style).sql ∧
      (f.statement style).params.length = (g.statement style).params.length := by
  constructor
  · show text style 0 f = text style 0 g
    rw [← text_masked bindsValues, same, text_masked bindsValues]
  · show (bound style f).length = (bound style g).length
    rw [← length_bound_masked, same, length_bound_masked]

end Fragment
end DocTable
