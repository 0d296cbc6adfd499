import DocTable.Proofs.Clause.Columnwise
import DocTable.Proofs.Table.Clauses

/-!
# The cells of an insertion

A cell's column is found by its place in the row (`sites_cells`), so a record puts each of
its values under its own column, though other records of the insertion may fill more
columns (`carries_insertDraft`).
-/

namespace DocTable
set_option autoImplicit false
open Sql (Place)

/-! ## Places in an insertion -/

namespace Piece

variable (b : Backend)

theorem placeAfter_opening (place : Place) :
    (word "(").placeAfter b.dialect place = place.next b.dialect Sql.opening := by
  cases b <;> rfl

theorem placeAfter_closing (place : Place) :
    (word ")").placeAfter b.dialect place = place.next b.dialect Sql.closing := by
  cases b <;> rfl

theorem placeAfter_comma (place : Place) :
    (word ", ").placeAfter b.dialect place =
      (place.next b.dialect Sql.comma).next b.dialect ⟨.blank, [' ']⟩ := by
  cases b <;> rfl

theorem placeAfter_comma_row (names : List String) (i : Nat) :
    (word ", ").placeAfter b.dialect (.row names i) = .row names (i + 1) := by
  cases b <;> rfl

/-- The words before the column list. -/
theorem placeAfter_target (name : String) :
    Fragment.placeAfter b.dialect .target [.word "INSERT INTO ", .table name, .word " "] =
      .target := by
  have words : (word "INSERT INTO ").placeAfter b.dialect .target = .target ∧
      (word " ").placeAfter b.dialect .target = .target := by
    cases b <;> decide
  have quoted : (table name).placeAfter b.dialect .target = .target := by
    show Place.target.after b.dialect (Sql.tableLexemes b.dialect (Text.split '.' name)) = .target
    generalize Text.split '.' name = parts
    induction parts with
    | nil => rfl
    | cons part parts ih =>
      cases parts with
      | nil => rfl
      | cons next parts => exact ih
  show (word " ").placeAfter b.dialect ((table name).placeAfter b.dialect
    ((word "INSERT INTO ").placeAfter b.dialect .target)) = .target
  rw [words.1, quoted, words.2]

end Piece

namespace Clause

variable {b : Backend} {r : Registry} {policy : FieldPolicy}

/-- Between names, a column list is read on. -/
theorem next_separator (d : Dialect) (names : List String) {l : Sql.Lexeme}
    (notName : l.mode ≠ .nameEnd) (notClosing : l ≠ Sql.closing) :
    (Place.columns names).next d l = .columns names := by
  rw [Place.next, if_neg notClosing, Sql.Lexeme.name?_of_ne d notName]
  simp

/-- The column list names its columns in order. -/
theorem placeAfter_columns (fields : List Field) (names : List String) :
    (Fragment.commas (fields.map fun f => [.column f.key])).placeAfter b.dialect (.columns names) =
      .columns (names ++ fields.map Field.key) := by
  have column (key : String) (names : List String) :
      (Piece.column key).placeAfter b.dialect (.columns names) = .columns (names ++ [key]) := by
    rw [Piece.placeAfter, Place.next, if_neg (by simp [Sql.nameLexeme, Sql.closing]),
      Sql.Lexeme.name?_nameLexeme]
    rfl
  induction fields generalizing names with
  | nil => simp [Fragment.commas, Fragment.separatedBy, Fragment.placeAfter]
  | cons f fs ih =>
    cases fs with
    | nil => exact column f.key names
    | cons g gs =>
      show Fragment.placeAfter _ ((Piece.word ", ").placeAfter b.dialect
        ((Piece.column f.key).placeAfter b.dialect (.columns names))) _ = _
      rw [column, Piece.placeAfter_comma, next_separator _ _ (by decide) (by decide),
        next_separator _ _ (by decide) (by decide)]
      exact (ih _).trans (by simp)

/-- After its column list, an insertion goes on with a row. -/
theorem placeAfter_columnList (fields : List Field) :
    (Fragment.parenthesized (Fragment.commas (fields.map fun f => [.column f.key]))).placeAfter
      b.dialect .target = .row (fields.map Field.key) 0 := by
  have opened : (Piece.word "(").placeAfter b.dialect .target = .columns [] :=
    Piece.placeAfter_opening b .target
  show Fragment.placeAfter _ ((Piece.word "(").placeAfter _ _)
    (Fragment.commas (fields.map fun f => [.column f.key]) ++ [.word ")"]) = _
  rw [opened, Fragment.placeAfter_append, placeAfter_columns]
  exact Piece.placeAfter_closing b (.columns ([] ++ fields.map Field.key))

/-! ## Rows -/

/-- A fragment of rows under a column list, which puts given values under their columns. -/
structure Rows (b : Backend) (names : List String) (f : Fragment) (given : List Given) : Prop where
  spaced : f.WellSpaced
  fits : ∀ g ∈ given, g.Fits
  sites : ∀ i, f.sites b.dialect (.row names i) = given.map Given.site
  after : ∀ i, ∃ j, f.placeAfter b.dialect (.row names i) = .row names j

theorem ok_cell {record : Record} {field : Field} {c : Fragment}
    (ok : (cell record field).outcome = .ok c) :
    (cell? record field = none ∧ c = [.word "DEFAULT"]) ∨
      ∃ v value, cell? record field = some v ∧ field.coerce v = .ok value ∧
        c = [.operand value] := by
  unfold cell at ok
  cases found : cell? record field with
  | none =>
    rw [found] at ok
    obtain rfl := Draft.ok_pure.mp ok
    exact .inl ⟨rfl, rfl⟩
  | some v =>
    rw [found] at ok
    obtain ⟨value, taken, rfl⟩ := Draft.ok_return.mp ok
    exact .inr ⟨v, value, rfl, Draft.ok_takeFor.mp taken, rfl⟩

theorem spaced_cell {record : Record} {field : Field} {c : Fragment}
    (ok : (cell record field).outcome = .ok c) : c.WellSpaced := by
  rcases ok_cell ok with ⟨-, rfl⟩ | ⟨v, value, -, -, rfl⟩
  · exact .single (by decide)
  · exact .single rfl

/-- The values of a record for some columns. -/
def givenFor (record : Record) (fields : List Field) : List Given :=
  fields.filterMap fun f => (cell? record f).map (Given.mk f)

/-- One cell, at its place in the row. -/
theorem sites_cell {record : Record} {field : Field} {c : Fragment}
    (ok : (cell record field).outcome = .ok c) {names : List String} {i : Nat}
    (column : names.getD i "" = field.key) :
    c.sites b.dialect (.row names i) = (givenFor record [field]).map Given.site ∧
      c.placeAfter b.dialect (.row names i) = .row names i ∧
      ∀ g ∈ givenFor record [field], g.Fits := by
  rcases ok_cell ok with ⟨empty, rfl⟩ | ⟨v, value, filled, coerced, rfl⟩
  · simp only [givenFor, List.filterMap_cons, empty, Option.map_none, List.filterMap_nil]
    refine ⟨rfl, ?_, nofun⟩
    cases b <;> rfl
  · obtain ⟨fits, typed⟩ := Given.fits_of_coerce coerced
    simp only [givenFor, List.filterMap_cons, filled, Option.map_some, List.filterMap_nil]
    refine ⟨?_, rfl, by simpa using fits⟩
    show [(names.getD i "", value)] = [(field.key, Given.typed ⟨field, v⟩)]
    rw [column, typed]

theorem sites_cells {record : Record} {fields : List Field} {cells : List Fragment}
    (composed : List.Forall₂ (fun f c => (cell record f).outcome = .ok c) fields cells)
    {names : List String} {i : Nat} (columns : names.drop i = fields.map Field.key) :
    (Fragment.commas cells).sites b.dialect (.row names i) =
        (givenFor record fields).map Given.site ∧
      (∃ j, (Fragment.commas cells).placeAfter b.dialect (.row names i) = .row names j) ∧
      ∀ g ∈ givenFor record fields, g.Fits := by
  induction composed generalizing i with
  | nil => exact ⟨rfl, ⟨i, rfl⟩, nofun⟩
  | @cons field c fields cells first others ih =>
    have column : names.getD i "" = field.key := by
      have head := congrArg List.head? columns
      rw [List.head?_drop] at head
      simp [List.getD_eq_getElem?_getD, head]
    have rest : names.drop (i + 1) = fields.map Field.key := by
      rw [← List.tail_drop, columns]
      rfl
    obtain ⟨here, stays, fits⟩ := sites_cell (b := b) first column
    obtain ⟨later, after, fitsLater⟩ := ih rest
    have split : givenFor record (field :: fields) =
        givenFor record [field] ++ givenFor record fields :=
      List.filterMap_append (l := [field])
    have given : ∀ g ∈ givenFor record (field :: fields), g.Fits := by
      intro g hg
      rw [split] at hg
      rcases List.mem_append.mp hg with hg | hg
      · exact fits g hg
      · exact fitsLater g hg
    cases others with
    | nil => exact ⟨here, ⟨i, stays⟩, given⟩
    | @cons next d fields cells second others =>
      obtain ⟨j, after⟩ := after
      have apart : (Piece.word ", ").placeAfter b.dialect (.row names i) = .row names (i + 1) :=
        Piece.placeAfter_comma_row b names i
      refine ⟨?_, ⟨j, ?_⟩, given⟩
      · rw [split, List.map_append, ← here, ← later, ← apart]
        show Fragment.sites _ _ (c ++ .word ", " :: Fragment.commas (d :: cells)) = _
        rw [Fragment.sites_append, stays]
        rfl
      · rw [← after, ← apart]
        show Fragment.placeAfter _ _ (c ++ .word ", " :: Fragment.commas (d :: cells)) = _
        rw [Fragment.placeAfter_append, stays]
        rfl

theorem rows_row {record : Record} {fields : List Field} {f : Fragment}
    (ok : (row fields record).outcome = .ok f) :
    Rows b (fields.map Field.key) f (givenFor record fields) := by
  obtain ⟨cells, composed, rfl⟩ := Draft.ok_return.mp ok
  have spaced : ∀ c ∈ cells, c.WellSpaced := Draft.forall_of_mapM spaced_cell composed
  have columns : (fields.map Field.key).drop 0 = fields.map Field.key := rfl
  obtain ⟨sites, ⟨j, after⟩, fits⟩ := sites_cells (b := b) (Draft.ok_mapM.mp composed) columns
  have opens (i : Nat) : (Piece.word "(").placeAfter b.dialect (.row (fields.map Field.key) i) =
      .row (fields.map Field.key) 0 := by
    rw [Piece.placeAfter_opening, Place.next, if_pos rfl]
  refine ⟨(Fragment.WellSpaced.commas spaced).parenthesized, fits, ?_, ?_⟩
  · intro i
    show Fragment.sites _ ((Piece.word "(").placeAfter _ _)
      (Fragment.commas cells ++ [.word ")"]) = _
    rw [opens, Fragment.sites_append, sites, Fragment.sites_eq_nil rfl, List.append_nil]
  · intro i
    refine ⟨j, ?_⟩
    show Fragment.placeAfter _ ((Piece.word "(").placeAfter _ _)
      (Fragment.commas cells ++ [.word ")"]) = _
    rw [opens, Fragment.placeAfter_append, after]
    exact Piece.placeAfter_closing b (.row (fields.map Field.key) j)

/-- Rows one after the other. -/
theorem rows_commas {names : List String} {rows : List Fragment} {given : List (List Given)}
    (each : List.Forall₂ (Rows b names) rows given) :
    Rows b names (Fragment.commas rows) given.flatten := by
  induction each with
  | nil => exact ⟨.nil, nofun, fun _ => rfl, fun i => ⟨i, rfl⟩⟩
  | @cons f xs rows given first others ih =>
    cases others with
    | nil => simpa [Fragment.commas, Fragment.separatedBy] using first
    | @cons g ys rows given second others =>
      refine ⟨?_, ?_, ?_, ?_⟩
      · exact first.spaced.append_word (by decide) (ih.spaced.word_cons (by decide) (by decide))
      · intro x hx
        rw [List.flatten_cons] at hx
        rcases List.mem_append.mp hx with hx | hx
        · exact first.fits x hx
        · exact ih.fits x hx
      · intro i
        obtain ⟨j, after⟩ := first.after i
        show Fragment.sites _ _ (f ++ .word ", " :: Fragment.commas (g :: rows)) = _
        rw [Fragment.sites_append, after, first.sites, List.flatten_cons, List.map_append,
          ← ih.sites (j + 1), ← Piece.placeAfter_comma_row b names j]
        rfl
      · intro i
        obtain ⟨j, after⟩ := first.after i
        obtain ⟨k, last⟩ := ih.after (j + 1)
        refine ⟨k, ?_⟩
        show Fragment.placeAfter _ _ (f ++ .word ", " :: Fragment.commas (g :: rows)) = _
        rw [Fragment.placeAfter_append, after, ← last, ← Piece.placeAfter_comma_row b names j]
        rfl

/-- An insertion is accepted when there are records, each passes its check, and every row is
composed. -/
theorem ok_insertion_iff {records : List Record} {f : Fragment} :
    (insertion r policy records).outcome = .ok f ↔
      records ≠ [] ∧ (∀ record ∈ records, checkRecord r policy record = .ok ()) ∧
      ∃ rows, (records.mapM (row (usedColumns r records))).outcome = .ok rows ∧
        f = columnsAndRows (usedColumns r records) rows := by
  rw [insertion_eq]
  cases records with
  | nil => simp
  | cons record records =>
    rw [if_neg (by simp)]
    constructor
    · intro ok
      obtain ⟨⟨⟩, checked, ok⟩ := Draft.ok_bind.mp ok
      obtain ⟨rows, composed, rfl⟩ := Draft.ok_return.mp ok
      exact ⟨List.cons_ne_nil _ _, Except.forall_of_forM checked, rows, composed, rfl⟩
    · rintro ⟨-, checked, rows, composed, rfl⟩
      exact Draft.ok_bind.mpr
        ⟨(), Except.forM_eq_ok_iff.mpr checked, Draft.ok_return.mpr ⟨rows, composed, rfl⟩⟩

/-- Columns that a record does not fill give it no values. -/
theorem givenFor_usedColumns {records : List Record} {record : Record} (h : record ∈ records) :
    givenFor record (usedColumns r records) = Request.ofRecord r record := by
  rw [givenFor, usedColumns, List.filterMap_filter, Request.ofRecord]
  apply List.filterMap_congr
  intro f _
  split
  · rfl
  · rename_i unused
    have empty : cell? record f = none := by
      cases filled : cell? record f with
      | none => rfl
      | some v => exact absurd (List.any_eq_true.mpr ⟨record, h, by simp [filled]⟩) unused
    rw [empty]
    rfl

theorem rows_insertion {records : List Record} {columns : List Field} {rows : List Fragment}
    (ok : (records.mapM (row columns)).outcome = .ok rows) :
    Rows b (columns.map Field.key) (Fragment.commas rows)
      (records.flatMap fun record => givenFor record columns) := by
  rw [List.flatMap_def]
  apply rows_commas
  rw [List.forall₂_map_right_iff]
  exact ((Draft.ok_mapM.mp ok).imp fun _ _ => rows_row).flip

/-- Rows under their column list. -/
theorem Rows.carries {fields : List Field} {f : Fragment} {given : List Given}
    (rows : Rows b (fields.map Field.key) f given) (name : String) :
    Fragment.Carries b
      ([.word "INSERT INTO ", .table name, .word " "] ++
        (Fragment.parenthesized (Fragment.commas (fields.map fun f => [.column f.key])) ++
          .word " VALUES " :: f)) given := by
  have list := (sited_columns (b := b) fields).parenthesized
  refine ⟨?_, rows.fits, _, _, rfl, ?_⟩
  · have table : Fragment.WellSpaced [.word "INSERT INTO ", .table name, .word " "] :=
      .word_cons (by decide) (by decide)
        (.append_word (f := [.table name]) (.single rfl) (by decide) (.single (by decide)))
    refine .append table (list.spaced.append_word (by decide)
      (rows.spaced.word_cons (by decide) (by decide))) ?_
    intro p hp q _
    obtain rfl : Piece.word " " = p := by simpa using hp
    exact .inl rfl
  · have first : Place.first (Sql.lexemes b.dialect "INSERT INTO ".toList) = .target := by
      cases b <;> decide
    have between : (Piece.word " VALUES ").placeAfter b.dialect (.row (fields.map Field.key) 0) =
        .row (fields.map Field.key) 0 := by
      cases b <;> rfl
    have noOperands : (Fragment.parenthesized
        (Fragment.commas (fields.map fun f => [.column f.key]))).operands = [] := by
      rw [← Fragment.map_snd_sites b.dialect (.beside ""), list.sites]
      rfl
    have sites : Fragment.sites b.dialect (.row (fields.map Field.key) 0) (.word " VALUES " :: f) =
        given.map Given.site := by
      show f.sites _ ((Piece.word " VALUES ").placeAfter _ _) = _
      rw [between, rows.sites]
    show Fragment.sites _ _ ([.word "INSERT INTO ", .table name, .word " "] ++ _) = _
    rw [first, Fragment.sites_append, Piece.placeAfter_target, Fragment.sites_append,
      placeAfter_columnList, Fragment.sites_eq_nil rfl, Fragment.sites_eq_nil noOperands, sites]
    rfl

end Clause

/-- An insertion carries the values of its records, one record after the other. -/
theorem Table.carries_insertDraft {b : Backend} {t : Table} {records : List Record}
    {f : Fragment} (ok : (t.insertDraft records).outcome = .ok f) :
    f.Carries b (records.flatMap (Request.ofRecord t.registry)) := by
  obtain ⟨values, composed, rfl⟩ := Draft.ok_return.mp ok
  obtain ⟨-, -, rows, written, rfl⟩ := Clause.ok_insertion_iff.mp composed
  have given : (records.flatMap fun record =>
      Clause.givenFor record (Clause.usedColumns t.registry records)) =
      records.flatMap (Request.ofRecord t.registry) := by
    apply List.flatMap_congr
    intro record h
    exact Clause.givenFor_usedColumns h
  have rows := Clause.rows_insertion (b := b) written
  rw [given] at rows
  exact rows.carries t.name

end DocTable
