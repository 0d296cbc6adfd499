import DocTable.Proofs.Coercion.Kept
import DocTable.Proofs.Sql.Written
import DocTable.Proofs.Statement.Composed

/-!
# Where null is written

A literal is null for null, and for a double that is no number
(`Backend.literal_eq_null_iff`). No draft takes such a double, whether it succeeds or fails
(`Draft.Composed.isFinite`), so that an operand is written as null for null only
(`Piece.operand_eq_null_iff`).
-/

namespace DocTable
set_option autoImplicit false
open Sql (Single lastMode literalMode)

/-! ## Null as text -/

namespace Backend

variable (b : Backend)

/-- Null is one word, and what is one lexeme of another kind is not null. -/
theorem ne_null_of_single {mode : Sql.Mode} {s : String} (single : Single b.dialect mode s.toList)
    (other : mode ≠ .word) : s ≠ "NULL" := by
  rintro rfl
  exact other (single.lastMode.symm.trans (Sql.single_null b).lastMode)

theorem literal_eq_null_iff (v : SqlValue) :
    b.dialect.literal v = "NULL" ↔ v = .null ∨ ¬ v.IsFinite := by
  have single := Sql.single_literal b v
  cases v with
  | null => exact iff_of_true rfl (.inl rfl)
  | text s =>
    have other : literalMode b.dialect (.text s) ≠ .word := by simp [literalMode]
    exact iff_of_false (b.ne_null_of_single single other) (by simp [SqlValue.IsFinite])
  | integer i =>
    have other : literalMode b.dialect (.integer i) ≠ .word := by simp [literalMode]
    exact iff_of_false (b.ne_null_of_single single other) (by simp [SqlValue.IsFinite])
  | boolean v =>
    refine iff_of_false ?_ (by simp [SqlValue.IsFinite])
    cases b <;> cases v <;> decide
  | double x =>
    cases finite : x.isFinite with
    | true =>
      rw [literalMode, if_pos finite] at single
      exact iff_of_false (b.ne_null_of_single single (by decide))
        (by simp [SqlValue.IsFinite, finite])
    | false =>
      refine iff_of_true ?_ (.inr (by simp [SqlValue.IsFinite, finite]))
      rw [Dialect.literal, finite]
      rfl

theorem placeholder_ne_null (k : Nat) : b.dialect.placeholder k ≠ "NULL" :=
  b.ne_null_of_single (Sql.single_placeholder b k) (by decide)

end Backend

theorem Piece.operand_eq_null_iff (b : Backend) {style : Style} (hb : style.dialect = b.dialect)
    {v : SqlValue} (finite : v.IsFinite) (before : Nat) :
    (operand v).text style before = "NULL" ↔ v = .null := by
  rw [text, hb]
  split
  · rename_i binds
    rw [Style.binds, Bool.and_eq_true, Bool.not_eq_true'] at binds
    refine iff_of_false (b.placeholder_ne_null _) ?_
    rintro rfl
    cases binds.2
  · rw [b.literal_eq_null_iff, or_iff_left (not_not.mpr finite)]

/-- No operand of a composed draft is a double that is no number, also when the draft fails. -/
theorem Draft.Composed.isFinite {α : Type} {x : Draft α} (composed : x.Composed) :
    ∀ v ∈ x.taken, v.IsFinite := by
  induction composed with
  | pure _ | fail _ => exact List.forall_mem_nil _
  | text s => exact List.forall_mem_singleton.mpr trivial
  | takeFor f v =>
    unfold Draft.takeFor
    cases coerced : f.coerce v with
    | ok value => exact List.forall_mem_singleton.mpr (ColumnType.isFinite_of_coerce coerced)
    | error cause => exact List.forall_mem_nil _
  | @bind _ _ x g _ _ first each =>
    rcases x with ⟨taken, e | a⟩
    · exact first
    · exact List.forall_mem_append.mpr ⟨first, each a⟩

/-! ## Constants -/

namespace Fragment

/-- The values that are written and never bound. -/
def constants (f : Fragment) : List SqlValue :=
  f.filterMap fun
    | .constant v => some v
    | _ => none

theorem constants_append (f g : Fragment) : constants (f ++ g) = constants f ++ constants g :=
  List.filterMap_append

theorem constants_word_subset {s : String} {f : Fragment} {vs : List SqlValue}
    (hf : constants f ⊆ vs) : constants (.word s :: f) ⊆ vs := hf

theorem constants_append_subset {f g : Fragment} {vs : List SqlValue} (hf : constants f ⊆ vs)
    (hg : constants g ⊆ vs) : constants (f ++ g) ⊆ vs := by
  rw [constants_append]
  exact List.append_subset.mpr ⟨hf, hg⟩

theorem constants_separatedBy (separator : String) (fs : List Fragment) :
    constants (separatedBy separator fs) = fs.flatMap constants :=
  read_separatedBy constants_append rfl fs

theorem constants_commas {fs : List Fragment} (none : ∀ f ∈ fs, constants f = []) :
    constants (commas fs) = [] :=
  (constants_separatedBy ", " fs).trans (List.flatMap_eq_nil_iff.mpr none)

theorem constants_commas_map {α : Type} {write : α → Fragment}
    (none : ∀ x, constants (write x) = []) (xs : List α) : constants (commas (xs.map write)) = [] :=
  constants_commas (List.forall_mem_map.mpr fun x _ => none x)

theorem constants_parenthesized (f : Fragment) : constants f.parenthesized = constants f := by
  show constants (f ++ [.word ")"]) = _
  rw [constants_append]
  exact List.append_nil _

end Fragment
end DocTable
