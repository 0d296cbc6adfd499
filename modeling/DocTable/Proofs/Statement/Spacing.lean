import DocTable.Proofs.Sql.Written
import DocTable.Statement.Basic
import Mathlib.Data.List.Chain

/-!
# Fragments that are cut piece by piece

A fragment is well spaced when a separator stands between any two pieces that
are not fixed words. Its text is then cut into the lexemes of its pieces, one
piece after the other (`lexemes_text`): no piece runs into the next one.
-/

namespace DocTable
set_option autoImplicit false
open Sql (Lexeme Single lastMode isSeparator isPlainChar literalMode)

namespace Piece

/-- A fixed word holds no quotes and no placeholders. -/
def isPlain : Piece → Bool
  | .word s => !s.toList.isEmpty && s.toList.all isPlainChar
  | _ => true

/-- The text starts with a separator. -/
def startsApart : Piece → Bool
  | .word s => s.toList.head?.any isSeparator
  | _ => false

/-- The text ends with a separator. -/
def endsApart : Piece → Bool
  | .word s => s.toList.getLast?.any isSeparator
  | _ => false

/-- A fixed word that stands apart from whatever is beside it. -/
def separates (s : String) : Bool :=
  (word s).isPlain && (word s).startsApart && (word s).endsApart

theorem separates_iff {s : String} :
    separates s = true ↔ (word s).isPlain = true ∧ (word s).startsApart = true ∧
      (word s).endsApart = true := by
  simp [separates, and_assoc]

/-- One of two neighbours brings the separator. -/
def Apart (p q : Piece) : Prop := p.endsApart = true ∨ q.startsApart = true

/-- The lexemes of a piece's text when `before` values are bound already. -/
def lexemes (style : Style) (before : Nat) (p : Piece) : List Lexeme :=
  Sql.lexemes style.dialect (p.text style before).toList

end Piece

namespace Fragment

/-- The lexemes of the pieces, one piece after the other. -/
def lexemes (style : Style) : Nat → Fragment → List Lexeme
  | _, [] => []
  | before, p :: ps => p.lexemes style before ++ lexemes style (before + (p.bound style).length) ps

/-- Fixed words are plain, and a separator stands between any two other pieces. -/
structure WellSpaced (f : Fragment) : Prop where
  plain : ∀ p ∈ f, p.isPlain = true
  apart : f.IsChain Piece.Apart

end Fragment

/-! ## The end of a piece -/

namespace Piece

theorem exists_of_any {α : Type} {p : α → Bool} {o : Option α} (h : o.any p = true) :
    ∃ a, o = some a ∧ p a = true := by
  cases o with
  | none => cases h
  | some a => exact ⟨a, rfl, h⟩

theorem plain_of_isPlain {s : String} (plain : (word s).isPlain = true) :
    s.toList ≠ [] ∧ ∀ c ∈ s.toList, isPlainChar c = true := by
  simp only [isPlain, Bool.and_eq_true, Bool.not_eq_true', List.isEmpty_eq_false_iff,
    List.all_eq_true] at plain
  exact plain

theorem single_operand (b : Backend) (style : Style) (hb : style.dialect = b.dialect)
    (before : Nat) (v : SqlValue) :
    ∃ mode ∈ [Sql.Mode.word, .number, .textEnd, .placeholder],
      Single style.dialect mode ((operand v).text style before).toList := by
  rw [text, hb]
  split
  · exact ⟨.placeholder, by decide, Sql.single_placeholder b (before + 1)⟩
  · refine ⟨literalMode b.dialect v, ?_, Sql.single_literal b v⟩
    exact List.mem_append_left [Sql.Mode.placeholder] (Sql.literalMode_mem b v)

theorem isClosed_lastMode (b : Backend) {style : Style} (hb : style.dialect = b.dialect)
    {p : Piece} (plain : p.isPlain = true) (before : Nat) :
    (lastMode style.dialect (p.text style before).toList).isClosed = true := by
  cases p with
  | word s =>
    obtain ⟨-, chars⟩ := plain_of_isPlain plain
    have h := (Sql.lexemes_plain b chars).2
    rw [hb]
    exact Sql.Mode.isClosed_of_isPlain h
  | column key =>
    rw [text, (Sql.single_quoteName style.dialect key).lastMode]
    rfl
  | table name =>
    rw [text, hb, (Sql.lexemes_quoteTable b name).2]
    rfl
  | operand v =>
    obtain ⟨mode, hm, one⟩ := single_operand b style hb before v
    rw [one.lastMode]
    simp only [List.mem_cons, List.not_mem_nil, or_false] at hm
    rcases hm with rfl | rfl | rfl | rfl <;> rfl
  | constant v =>
    rw [text, hb, (Sql.single_literal b v).lastMode]
    have hm := Sql.literalMode_mem b v
    simp only [List.mem_cons, List.not_mem_nil, or_false] at hm
    rcases hm with h | h | h <;> rw [h] <;> rfl

theorem isTight_lastMode (b : Backend) {style : Style} (hb : style.dialect = b.dialect)
    {p : Piece} (plain : p.isPlain = true) (ends : p.endsApart = true) (before : Nat) :
    (lastMode style.dialect (p.text style before).toList).isTight = true := by
  cases p with
  | word s =>
    obtain ⟨-, chars⟩ := plain_of_isPlain plain
    obtain ⟨c, last, separator⟩ := exists_of_any ends
    obtain ⟨front, e⟩ := List.getLast?_eq_some_iff.mp last
    rw [e] at chars
    have inFront : ∀ x ∈ front, isPlainChar x = true := fun x hx =>
      chars x (List.mem_append_left [c] hx)
    have closed := Sql.Mode.isClosed_of_isPlain (Sql.lexemes_plain b inFront).2
    have apart : ∀ x ∈ [c].head?, Sql.extend? b.dialect (lastMode b.dialect front) x = none := by
      intro x hx
      obtain rfl : c = x := by simpa using hx
      exact Sql.extend?_separator separator b closed
    rw [text, hb, e, Sql.lastMode_append (List.cons_ne_nil c []) apart]
    exact Sql.isTight_start_separator separator b
  | _ => cases ends

/-- Nothing that follows a piece goes on with its last lexeme. -/
theorem extend?_text (b : Backend) {style : Style} (hb : style.dialect = b.dialect) {p q : Piece}
    (plain : p.isPlain = true) (apart : Apart p q) (before after : Nat) {more : List Char}
    {c : Char} (first : ((q.text style after).toList ++ more).head? = some c)
    (written : (q.text style after).toList ≠ []) :
    Sql.extend? style.dialect (lastMode style.dialect (p.text style before).toList) c = none := by
  rcases apart with ends | starts
  · exact Sql.Mode.extend?_of_isTight _ (isTight_lastMode b hb plain ends before) c
  · cases q with
    | word s =>
      obtain ⟨e, head, separator⟩ := exists_of_any starts
      have same : c = e := by
        rw [List.head?_append_of_ne_nil _ written] at first
        exact Option.some.inj (first.symm.trans head)
      have closed := isClosed_lastMode b hb plain before
      rw [hb] at closed ⊢
      exact Sql.extend?_separator (same ▸ separator) b closed
    | _ => cases starts

theorem text_ne_nil (b : Backend) {style : Style} (hb : style.dialect = b.dialect) {p : Piece}
    (plain : p.isPlain = true) (before : Nat) : (p.text style before).toList ≠ [] := by
  have nonempty : ∀ {mode cs}, Single style.dialect mode cs → cs ≠ [] := by
    rintro mode cs one rfl
    cases one.lexemes
  cases p with
  | word s => exact (plain_of_isPlain plain).1
  | column key => exact nonempty (Sql.single_quoteName style.dialect key)
  | table name =>
    have last := (Sql.lexemes_quoteTable b name).2
    intro empty
    rw [text, hb] at empty
    rw [empty] at last
    cases last
  | operand v =>
    obtain ⟨mode, -, one⟩ := single_operand b style hb before v
    exact nonempty one
  | constant v =>
    have one := Sql.single_literal b v
    rw [← hb] at one
    exact nonempty one

end Piece

namespace Fragment

/-- A well spaced fragment is cut into the lexemes of its pieces. -/
theorem lexemes_text (b : Backend) {style : Style} (hb : style.dialect = b.dialect) {f : Fragment}
    (spaced : f.WellSpaced) (before : Nat) :
    Sql.lexemes style.dialect (f.text style before).toList = f.lexemes style before := by
  induction f generalizing before with
  | nil => rfl
  | cons p ps ih =>
    have plain := spaced.plain p List.mem_cons_self
    have rest : WellSpaced ps :=
      ⟨fun q hq => spaced.plain q (List.mem_cons_of_mem p hq), spaced.apart.tail⟩
    rw [text, lexemes, ← ih rest, String.toList_append]
    refine Sql.lexemes_append fun c first => ?_
    cases ps with
    | nil => simp [text] at first
    | cons q qs =>
      have plainNext := rest.plain q List.mem_cons_self
      have apart : p.Apart q := (List.isChain_cons_cons.mp spaced.apart).1
      rw [text, String.toList_append] at first
      exact Piece.extend?_text b hb plain apart before _ first
        (Piece.text_ne_nil b hb plainNext _)

/-! ## Spacing of composed fragments -/

namespace WellSpaced

theorem nil : WellSpaced [] := ⟨fun _ h => absurd h List.not_mem_nil, .nil⟩

theorem single {p : Piece} (plain : p.isPlain = true) : WellSpaced [p] :=
  ⟨fun _ h => List.mem_singleton.mp h ▸ plain, .singleton p⟩

theorem append {f g : Fragment} (hf : WellSpaced f) (hg : WellSpaced g)
    (between : ∀ p ∈ f.getLast?, ∀ q ∈ g.head?, p.Apart q) : WellSpaced (f ++ g) := by
  refine ⟨?_, List.isChain_append.mpr ⟨hf.apart, hg.apart, between⟩⟩
  intro p hp
  rcases List.mem_append.mp hp with hp | hp
  · exact hf.plain p hp
  · exact hg.plain p hp

/-- After a word that ends with a separator anything may follow. -/
theorem word_cons {s : String} {g : Fragment} (plain : (Piece.word s).isPlain = true)
    (ends : (Piece.word s).endsApart = true) (hg : WellSpaced g) : WellSpaced (.word s :: g) := by
  apply append (single plain) hg
  intro p hp q _
  obtain rfl : Piece.word s = p := by simpa using hp
  exact .inl ends

/-- A word that starts with a separator may follow anything. -/
theorem append_word {f g : Fragment} {s : String} (hf : WellSpaced f)
    (starts : (Piece.word s).startsApart = true) (hg : WellSpaced (.word s :: g)) :
    WellSpaced (f ++ .word s :: g) := by
  apply append hf hg
  intro p _ q hq
  obtain rfl : Piece.word s = q := by simpa using hq
  exact .inr starts

theorem separatedBy {separator : String} (separates : Piece.separates separator = true)
    {fs : List Fragment} (each : ∀ f ∈ fs, WellSpaced f) :
    WellSpaced (Fragment.separatedBy separator fs) := by
  obtain ⟨plain, starts, ends⟩ := Piece.separates_iff.mp separates
  induction fs with
  | nil => exact nil
  | cons f fs ih =>
    have here : WellSpaced f := each f List.mem_cons_self
    have rest := ih fun g hg => each g (List.mem_cons_of_mem f hg)
    cases fs with
    | nil => exact here
    | cons g gs => exact append_word here starts (word_cons plain ends rest)

theorem commas {fs : List Fragment} (each : ∀ f ∈ fs, WellSpaced f) :
    WellSpaced (Fragment.commas fs) :=
  separatedBy (by decide) each

theorem parenthesized {f : Fragment} (hf : WellSpaced f) : WellSpaced f.parenthesized :=
  word_cons (by decide) (by decide) (append_word hf (by decide) (single (by decide)))

end WellSpaced
end Fragment
end DocTable
