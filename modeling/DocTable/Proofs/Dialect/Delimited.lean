import DocTable.Dialect.Basic

/-!
# Delimited text

How the databases find the end of a text or of a delimited name: the closing delimiter twice
is one character of it, and where a backslash escapes, it takes the next character. What a
dialect quotes is read up to its own closing delimiter, and as what was quoted
(`Backend.scan_quoted_iff`).
-/

namespace DocTable
set_option autoImplicit false

open Quoting (apostrophe backslash double escape)

/-- How delimited text is read. -/
structure Delimiters where
  opening : List Char
  closing : Char
  /-- Whether a backslash takes the next character. -/
  escapes : Bool
  deriving DecidableEq, Repr

/-- What has been read of delimited text, and what follows it. -/
structure Scanned where
  text : List Char
  rest : List Char
  deriving DecidableEq, Repr

namespace Scanned

/-- With characters read before. -/
def after (read : List Char) (s : Scanned) : Scanned := ⟨read ++ s.text, s.rest⟩

theorem after_after (front back : List Char) (s : Scanned) :
    (s.after back).after front = s.after (front ++ back) := by
  simp [after]

end Scanned

namespace Delimiters

/-- The character that an escaped one stands for. -/
def taken (c : Char) : Char :=
  if c = '0' then '\x00' else if c = 'Z' then '\x1a' else c

/-- Reads up to the closing delimiter; nothing where there is none. -/
def inside? (q : Delimiters) : List Char → Option Scanned
  | [] => none
  | [c] => if c = q.closing then some ⟨[], []⟩ else none
  | c :: d :: cs =>
    if c = q.closing then
      if d = q.closing then (q.inside? cs).map (.after [c]) else some ⟨[], d :: cs⟩
    else if q.escapes && c = backslash then (q.inside? cs).map (.after [taken d])
    else (q.inside? (d :: cs)).map (.after [c])

/-- Reads delimited text that stands first. -/
def scan? (q : Delimiters) (s : String) : Option (String × String) :=
  if q.opening.isPrefixOf s.toList then
    (q.inside? (s.toList.drop q.opening.length)).map fun scanned =>
      (.ofList scanned.text, .ofList scanned.rest)
  else none

variable {q : Delimiters}

/-! ## One character -/

/-- A character that is no delimiter and no escape is read as itself. -/
theorem inside?_plain {c : Char} (inner : c ≠ q.closing)
    (unescaped : (q.escapes && c = backslash) = false) (cs : List Char) :
    q.inside? (c :: cs) = (q.inside? cs).map (.after [c]) := by
  cases cs with
  | nil => simp [inside?, inner]
  | cons d ds =>
    rw [inside?, if_neg inner, unescaped]
    rfl

theorem inside?_doubled (cs : List Char) :
    q.inside? (q.closing :: q.closing :: cs) = (q.inside? cs).map (.after [q.closing]) := by
  rw [inside?, if_pos rfl, if_pos rfl]

theorem inside?_escaped (escapes : q.escapes = true) (inner : backslash ≠ q.closing) (c : Char)
    (cs : List Char) :
    q.inside? (backslash :: c :: cs) = (q.inside? cs).map (.after [taken c]) := by
  rw [inside?, if_neg inner, escapes]
  rfl

/-- The closing delimiter ends the text unless it is doubled. -/
theorem inside?_closing {rest : List Char} (apart : rest.head? ≠ some q.closing) :
    q.inside? (q.closing :: rest) = some ⟨[], rest⟩ := by
  cases rest with
  | nil => simp [inside?]
  | cons d ds =>
    have other : d ≠ q.closing := fun same => apart (congrArg some same)
    rw [inside?, if_pos rfl, if_neg other]

/-! ## What is written -/

/-- Characters are read as some text, whatever comes after them. -/
def Reads (q : Delimiters) (written text : List Char) : Prop :=
  ∀ cs, q.inside? (written ++ cs) = (q.inside? cs).map (.after text)

theorem Reads.nil : q.Reads [] [] := by
  intro cs
  rw [List.nil_append]
  cases q.inside? cs <;> rfl

theorem Reads.append {front back text more : List Char} (first : q.Reads front text)
    (second : q.Reads back more) : q.Reads (front ++ back) (text ++ more) := by
  intro cs
  rw [List.append_assoc, first, second, Option.map_map]
  congr 1
  funext scanned
  exact Scanned.after_after text more scanned

/-- Text whose closing delimiters are doubled, by induction on it. -/
theorem reads_double (plain : q.escapes = false) (text : List Char) :
    q.Reads (double q.closing text) text := by
  induction text with
  | nil => exact .nil
  | cons c cs ih =>
    by_cases closing : c = q.closing
    · have here : q.Reads [q.closing, q.closing] [q.closing] := inside?_doubled
      rw [double, if_pos closing, closing]
      exact here.append ih
    · have here : q.Reads [c] [c] := inside?_plain closing (by rw [plain]; rfl)
      rw [double, if_neg closing]
      exact here.append ih

/-- Text that is escaped, by induction on it: an apostrophe is doubled, and what has an escape
is read from it. -/
theorem reads_escape (closing : q.closing = apostrophe) (escapes : q.escapes = true)
    (text : List Char) : q.Reads (escape text) text := by
  have escaped (c : Char) : q.Reads [backslash, c] [taken c] :=
    inside?_escaped escapes (by rw [closing]; decide) c
  induction text with
  | nil => exact .nil
  | cons c cs ih =>
    rw [escape]
    split
    · rename_i same
      subst same
      exact (escaped backslash).append ih
    split
    · rename_i same
      have doubled : q.Reads [q.closing, q.closing] [q.closing] := inside?_doubled
      rw [closing] at doubled
      subst same
      exact doubled.append ih
    split
    · rename_i same
      subst same
      exact (escaped '0').append ih
    split
    · rename_i same
      subst same
      exact (escaped 'Z').append ih
    · rename_i notBackslash notApostrophe _ _
      have here : q.Reads [c] [c] :=
        inside?_plain (by rw [closing]; exact notApostrophe) (by simp [notBackslash])
      exact here.append ih

/-- Delimited text is read as what it was written for exactly if nothing that follows goes on
with its closing delimiter: one more would be read as a doubled one. -/
theorem scan?_eq_some_iff {written text : List Char} (reads : q.Reads written text)
    (rest : String) :
    q.scan? (.ofList (q.opening ++ (written ++ [q.closing])) ++ rest) =
        some (.ofList text, rest) ↔
      rest.toList.head? ≠ some q.closing := by
  have chars : (String.ofList (q.opening ++ (written ++ [q.closing])) ++ rest).toList =
      q.opening ++ (written ++ q.closing :: rest.toList) := by
    simp [String.toList_append]
  rw [scan?, chars, if_pos (List.isPrefixOf_iff_prefix.mpr (List.prefix_append _ _)),
    List.drop_left, reads]
  constructor
  · intro read goesOn
    obtain ⟨more, whole⟩ := List.head?_eq_some_iff.mp goesOn
    rw [whole, inside?_doubled] at read
    cases inner : q.inside? more with
    | none =>
      rw [inner] at read
      cases read
    | some scanned =>
      rw [inner] at read
      have longer : text ++ ([q.closing] ++ scanned.text) = text :=
        String.ofList_injective (congrArg Prod.fst (Option.some.inj read))
      simp at longer
  · intro apart
    rw [inside?_closing apart]
    simp [Scanned.after]

end Delimiters

/-! ## The known dialects -/

namespace Backend

/-- How a database reads text literals. -/
def textDelimiters : Backend → Delimiters
  | .postgres | .oracle => ⟨[apostrophe], apostrophe, false⟩
  | .mysql => ⟨[apostrophe], apostrophe, true⟩
  | .mssql => ⟨['N', apostrophe], apostrophe, false⟩

/-- How a database reads delimited names. -/
def nameDelimiters : Backend → Delimiters
  | .postgres | .oracle => ⟨['"'], '"', false⟩
  | .mysql => ⟨['\x60'], '\x60', false⟩
  | .mssql => ⟨['['], ']', false⟩

theorem scan_quoteText_iff (b : Backend) (t rest : String) :
    b.textDelimiters.scan? (b.dialect.quoteText t ++ rest) = some (t, rest) ↔
      rest.toList.head? ≠ some apostrophe := by
  have reads : ∃ written, b.textDelimiters.Reads written t.toList ∧
      b.dialect.quoteText t =
        .ofList (b.textDelimiters.opening ++ (written ++ [b.textDelimiters.closing])) := by
    cases b with
    | postgres | oracle | mssql => exact ⟨_, Delimiters.reads_double rfl t.toList, rfl⟩
    | mysql => exact ⟨_, Delimiters.reads_escape rfl rfl t.toList, rfl⟩
  have closing : b.textDelimiters.closing = apostrophe := by cases b <;> rfl
  obtain ⟨written, reads, quoted⟩ := reads
  have read := Delimiters.scan?_eq_some_iff reads rest
  rwa [← quoted, closing, String.ofList_toList] at read

theorem scan_quoteName_iff (b : Backend) (t rest : String) :
    b.nameDelimiters.scan? (b.dialect.quoteName t ++ rest) = some (t, rest) ↔
      rest.toList.head? ≠ some b.nameDelimiters.closing := by
  have plain : b.nameDelimiters.escapes = false := by cases b <;> rfl
  have quoted : b.dialect.quoteName t = .ofList (b.nameDelimiters.opening ++
      (double b.nameDelimiters.closing t.toList ++ [b.nameDelimiters.closing])) := by
    cases b <;> rfl
  have read := Delimiters.scan?_eq_some_iff (Delimiters.reads_double plain t.toList) rest
  rwa [← quoted, String.ofList_toList] at read

/-- **Quotes stay closed.** A quoted text or name is read by its database as exactly what was
quoted, up to its own closing delimiter, whatever it contains and whatever follows, unless
what follows begins with that delimiter. -/
theorem scan_quoted_iff (b : Backend) (t rest : String) :
    (b.textDelimiters.scan? (b.dialect.quoteText t ++ rest) = some (t, rest) ↔
      rest.toList.head? ≠ some '\x27') ∧
    (b.nameDelimiters.scan? (b.dialect.quoteName t ++ rest) = some (t, rest) ↔
      rest.toList.head? ≠ some b.nameDelimiters.closing) :=
  ⟨scan_quoteText_iff b t rest, scan_quoteName_iff b t rest⟩

example : mysql.textDelimiters.scan? "'\\\\''\\0' OR 1" = some ("\\'\x00", " OR 1") := by
  decide +kernel

end Backend
end DocTable
