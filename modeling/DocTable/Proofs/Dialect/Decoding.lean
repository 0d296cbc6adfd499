import DocTable.Proofs.Executor.Quoted
import Mathlib.Data.List.Forall2

/-!
# What decoding changes

Decoding takes the quotes off a complete literal and leaves all other text as it is. Where
apostrophes are only doubled, the literals are what quoting writes (`undouble?_eq_some_iff`).
Where a backslash escapes, they are all sequences of units (`unescape?_eq_some_iff`), more than
quoting writes. So decoding undoes quoting (`Dialect.literals_round_trip`) and changes nothing
that is no literal (`Backend.decodes_literals`).
-/

namespace DocTable
set_option autoImplicit false

/-! ## Rows -/

namespace Dialect

/-- **Quoting is undone.** A text that is quoted is decoded to itself, and so is a row whose
texts are all quoted. Decoding keeps the keys of a row, their order, and what is no text. -/
theorem literals_round_trip (d : Dialect) (t : String) (row : Row) :
    d.decodeText (d.quoteText t) = t ∧
    d.decodeRow (d.quoteRow row) = row ∧
    List.Forall₂
      (fun cell decoded => decoded.1 = cell.1 ∧ ((∃ s, cell.2 = .str s) ∨ decoded.2 = cell.2))
      row (d.decodeRow row) := by
  refine ⟨d.decodeText_quoteText t, d.decodeRow_quoteRow row, ?_⟩
  rw [decodeRow, List.forall₂_map_right_iff, List.forall₂_same]
  rintro ⟨key, v⟩ -
  refine ⟨rfl, ?_⟩
  cases v with
  | str s => exact .inl ⟨s, rfl⟩
  | _ => exact .inr rfl

end Dialect

/-! ## Between apostrophes -/

open Quoting (apostrophe backslash)

/-- A unit of text between apostrophes where a backslash escapes. -/
inductive LiteralUnit where
  /-- A character that stands for itself. -/
  | plain (c : Char) (notApostrophe : c ≠ apostrophe) (notBackslash : c ≠ backslash)
  /-- An apostrophe, written twice. -/
  | doubled
  /-- Whatever character comes after a backslash. -/
  | escaped (c : Char)
  deriving DecidableEq, Repr

namespace LiteralUnit

def written : LiteralUnit → List Char
  | .plain c _ _ => [c]
  | .doubled => [apostrophe, apostrophe]
  | .escaped c => [backslash, c]

/-- The characters that stand for others after a backslash. -/
def escapes : List (Char × Char) :=
  [('0', '\x00'), ('n', '\n'), ('r', '\r'), ('t', '\t'), ('Z', '\x1a')]

def value : LiteralUnit → Char
  | .plain c _ _ => c
  | .doubled => apostrophe
  | .escaped c => (escapes.lookup c).getD c

theorem value_escaped (c : Char) : (escaped c).value = Quoting.escaped c := by
  unfold Quoting.escaped
  split
  case h_6 zero newline carriage tab sub =>
    have other : escapes.lookup c = none :=
      List.lookup_eq_none_iff.mpr (by simpa [escapes] using ⟨zero, newline, carriage, tab, sub⟩)
    rw [value, other, Option.getD_none]
  all_goals rfl

end LiteralUnit

namespace Quoting
open LiteralUnit (written value)

theorem between?_eq_some_iff {opening closing : Char} {cs inner : List Char} :
    between? opening closing cs = some inner ↔ cs = opening :: inner ++ [closing] := by
  constructor
  · intro read
    cases cs with
    | nil => cases read
    | cons c cs =>
      obtain ⟨delimited, same⟩ := Option.ite_none_right_eq_some.mp read
      obtain rfl := Option.some.inj same
      rw [Bool.and_eq_true, decide_eq_true_eq, beq_iff_eq, List.getLast?_eq_some_iff] at delimited
      obtain ⟨rfl, front, rfl⟩ := delimited
      rw [List.dropLast_concat, List.cons_append]
  · rintro rfl
    exact between?_cons_append opening closing inner

/-- Doubled text is read and nothing else, by induction as it is read. -/
theorem undouble?_eq_some_iff {q : Char} {cs text : List Char} :
    undouble? q cs = some text ↔ cs = double q text := by
  refine ⟨fun read => ?_, fun written => written ▸ undouble?_double q text⟩
  fun_induction undouble? q cs generalizing text with
  | case1 =>
    obtain rfl := Option.some.inj read
    rfl
  | case2 => cases read
  | case3 c other =>
    obtain rfl := Option.some.inj read
    rw [double, if_neg other, double]
  | case4 cs ih =>
    obtain ⟨rest, inner, rfl⟩ := Option.map_eq_some_iff.mp read
    rw [double, if_pos rfl, ih inner]
  | case5 => cases read
  | case6 c d cs other ih =>
    obtain ⟨rest, inner, rfl⟩ := Option.map_eq_some_iff.mp read
    rw [double, if_neg other, ih inner]

theorem unescape?_apostrophe (cs : List Char) :
    unescape? (apostrophe :: apostrophe :: cs) = (unescape? cs).map (apostrophe :: ·) := by
  rw [unescape?, if_neg (by decide), if_pos rfl, if_pos rfl]

/-- Units are read as their values, one after the other. -/
theorem unescape?_units (units : List LiteralUnit) :
    unescape? (units.flatMap written) = some (units.map value) := by
  induction units with
  | nil => rfl
  | cons unit units ih =>
    rw [List.flatMap_cons, List.map_cons]
    cases unit with
    | plain c notApostrophe notBackslash => exact unescape?_plain notBackslash notApostrophe ih
    | doubled =>
      show unescape? (apostrophe :: apostrophe :: units.flatMap written) = _
      rw [unescape?_apostrophe, ih]
      rfl
    | escaped c =>
      show unescape? (backslash :: c :: units.flatMap written) = _
      rw [unescape?_backslash, ih, LiteralUnit.value_escaped]
      rfl

/-- Nothing but units is read, by induction as it is read. -/
theorem exists_units {cs text : List Char} (read : unescape? cs = some text) :
    ∃ units : List LiteralUnit, cs = units.flatMap written ∧ text = units.map value := by
  fun_induction unescape? cs generalizing text with
  | case1 =>
    obtain rfl := Option.some.inj read
    exact ⟨[], rfl, rfl⟩
  | case2 => cases read
  | case3 c other =>
    obtain rfl := Option.some.inj read
    rw [Bool.or_eq_true, decide_eq_true_eq, decide_eq_true_eq, not_or] at other
    exact ⟨[.plain c other.2 other.1], rfl, rfl⟩
  | case4 c cs ih =>
    obtain ⟨rest, inner, rfl⟩ := Option.map_eq_some_iff.mp read
    obtain ⟨units, rfl, rfl⟩ := ih inner
    refine ⟨.escaped c :: units, rfl, ?_⟩
    rw [List.map_cons, LiteralUnit.value_escaped]
  | case5 cs _ ih =>
    obtain ⟨rest, inner, rfl⟩ := Option.map_eq_some_iff.mp read
    obtain ⟨units, rfl, rfl⟩ := ih inner
    exact ⟨.doubled :: units, rfl, rfl⟩
  | case6 => cases read
  | case7 c d cs notBackslash notApostrophe ih =>
    obtain ⟨rest, inner, rfl⟩ := Option.map_eq_some_iff.mp read
    obtain ⟨units, whole, rfl⟩ := ih inner
    exact ⟨.plain c notApostrophe notBackslash :: units, congrArg (c :: ·) whole, rfl⟩

theorem unescape?_eq_some_iff {cs text : List Char} :
    unescape? cs = some text ↔
      ∃ units : List LiteralUnit, cs = units.flatMap written ∧ text = units.map value := by
  refine ⟨exists_units, ?_⟩
  rintro ⟨units, rfl, rfl⟩
  exact unescape?_units units

end Quoting

/-! ## Literals -/

namespace TextQuoting
open Quoting

/-- Text between apostrophes is read as what it is doubled from. -/
theorem delimited_iff {cs text : List Char} :
    (between? apostrophe apostrophe cs).bind (undouble? apostrophe) = some text ↔
      cs = quoteChars .plain text := by
  simp only [Option.bind_eq_some_iff, between?_eq_some_iff, undouble?_eq_some_iff]
  rw [quoteChars]
  constructor
  · rintro ⟨_, whole, rfl⟩
    exact whole
  · intro whole
    exact ⟨_, whole, rfl⟩

/-- A national literal may come without its mark. -/
theorem unquoteChars?_national_iff {cs text : List Char} :
    unquoteChars? .national cs = some text ↔
      cs = quoteChars .national text ∨ 'N' :: cs = quoteChars .national text := by
  have unmarked (cs : List Char) :
      'N' :: cs = quoteChars .national text ↔ cs = quoteChars .plain text := by
    rw [quoteChars, quoteChars]
    exact List.cons_inj_right 'N'
  by_cases marked : ∃ rest, cs = 'N' :: rest
  · obtain ⟨rest, rfl⟩ := marked
    have notPlain : 'N' :: rest ≠ quoteChars .plain text := by
      simp [quoteChars, apostrophe]
    rw [unquoteChars?, delimited_iff, unmarked, unmarked, or_iff_left notPlain]
  · have notMarked : cs ≠ quoteChars .national text := fun same => marked ⟨_, same⟩
    rw [unquoteChars?.eq_3 cs fun rest same => marked ⟨rest, same⟩, delimited_iff, unmarked,
      or_iff_right notMarked]

theorem unquoteChars?_backslash_iff {cs text : List Char} :
    unquoteChars? .backslash cs = some text ↔
      ∃ units : List LiteralUnit,
        cs = apostrophe :: units.flatMap LiteralUnit.written ++ [apostrophe] ∧
          text = units.map LiteralUnit.value := by
  simp only [unquoteChars?, Option.bind_eq_some_iff, between?_eq_some_iff, unescape?_eq_some_iff]
  constructor
  · rintro ⟨_, whole, units, rfl, same⟩
    exact ⟨units, whole, same⟩
  · rintro ⟨units, whole, same⟩
    exact ⟨_, whole, units, rfl, same⟩

end TextQuoting

namespace Dialect

theorem unquoteText?_eq_some_iff {d : Dialect} {literal t : String} :
    d.unquoteText? literal = some t ↔ d.texts.unquoteChars? literal.toList = some t.toList := by
  rw [unquoteText?, Option.map_eq_some_iff]
  constructor
  · rintro ⟨text, read, rfl⟩
    rw [read, String.toList_ofList]
  · intro read
    exact ⟨_, read, String.ofList_toList⟩

theorem eq_quoteText_iff {d : Dialect} {literal t : String} :
    literal = d.quoteText t ↔ literal.toList = d.texts.quoteChars t.toList := by
  rw [quoteText, ← String.toList_inj, String.toList_ofList]

end Dialect

namespace Backend

/-- The complete literals of a text. -/
def IsLiteral : Backend → String → String → Prop
  | .postgres, literal, t => literal = Dialect.postgres.quoteText t
  | .oracle, literal, t => literal = Dialect.oracle.quoteText t
  | .mssql, literal, t =>
    literal = Dialect.mssql.quoteText t ∨ "N" ++ literal = Dialect.mssql.quoteText t
  | .mysql, literal, t => ∃ units : List LiteralUnit,
    literal = .ofList (apostrophe :: units.flatMap LiteralUnit.written ++ [apostrophe]) ∧
      t = .ofList (units.map LiteralUnit.value)

theorem unquoteText?_iff (b : Backend) (literal t : String) :
    b.dialect.unquoteText? literal = some t ↔ b.IsLiteral literal t := by
  rw [Dialect.unquoteText?_eq_some_iff]
  cases b with
  | postgres | oracle =>
    rw [IsLiteral, Dialect.eq_quoteText_iff]
    exact TextQuoting.delimited_iff
  | mssql =>
    have marked : ("N" ++ literal).toList = 'N' :: literal.toList := String.toList_append
    rw [IsLiteral, Dialect.eq_quoteText_iff, Dialect.eq_quoteText_iff, marked]
    exact TextQuoting.unquoteChars?_national_iff
  | mysql =>
    refine TextQuoting.unquoteChars?_backslash_iff.trans (exists_congr fun units => ?_)
    rw [← String.toList_inj, String.toList_ofList, ← String.toList_inj, String.toList_ofList]

/-- **Only literals are decoded.** A text is read as a literal if and only if it is one: what
quoting writes, for SQL Server with or without its mark, for MySQL any units between two
apostrophes. Such a text is decoded to what it stands for, and every other text to itself. -/
theorem decodes_literals (b : Backend) (s : String) :
    (∀ t, b.dialect.unquoteText? s = some t ↔ b.IsLiteral s t) ∧
    ((∃ t, b.IsLiteral s t ∧ b.dialect.decodeText s = t) ∨
      (∀ t, ¬ b.IsLiteral s t) ∧ b.dialect.decodeText s = s) := by
  refine ⟨b.unquoteText?_iff s, ?_⟩
  rw [Dialect.decodeText]
  cases read : b.dialect.unquoteText? s with
  | some t => exact .inl ⟨t, (b.unquoteText?_iff s t).mp read, rfl⟩
  | none =>
    refine .inr ⟨fun t literal => ?_, rfl⟩
    rw [(b.unquoteText?_iff s t).mpr literal] at read
    cases read

/-- The last apostrophe is part of a unit, so the literal has no end. -/
example : mysql.dialect.decodeText "'ends in \\'" = "'ends in \\'" := by decide +kernel

end Backend
end DocTable
