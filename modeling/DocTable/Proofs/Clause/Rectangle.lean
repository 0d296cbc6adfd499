import DocTable.Proofs.Clause.Payload
import DocTable.Proofs.Clause.Taken
import DocTable.Proofs.Statement.InTurn
import DocTable.Proofs.Table.Insertion

/-!
# The rectangle of an insertion

An insertion is a rectangle (`Rectangle`): a column for every field that one of its records
fills, a row for every record, and in each cell the record's value in the type of its column,
or the column's default. It is written as such, its values bound row by row, and it is refused
for want of data just when there is no record, or one without data (`insertion_rectangle`).
-/

namespace DocTable.Clause
set_option autoImplicit false

/-- A record has a present value for a field. -/
def Fills (record : Record) (f : Field) : Prop :=
  ∃ v, record.field? f = some v ∧ v.isPresent = true

/-- A record fills a column beside the key. -/
def HasData (r : Registry) (record : Record) : Prop :=
  ∃ f ∈ r.fields, f.isPrimaryKey = false ∧ Fills record f

/-- The cell of a record in a column: its present value in the type of the column, or none for
the column's default. -/
inductive IsCell (record : Record) (f : Field) : Option SqlValue → Prop where
  | value {v : Json} {x : SqlValue} : record.field? f = some v → v.isPresent = true →
      f.coerce v = .ok x → IsCell record f (some x)
  | default : ¬ Fills record f → IsCell record f none

structure Rectangle (r : Registry) (records : List Record) (columns : List Field)
    (rows : List (List (Option SqlValue))) : Prop where
  /-- The columns are in the order of the registry. -/
  ordered : columns.Sublist r.fields
  used : ∀ f, f ∈ columns ↔ f ∈ r.fields ∧ ∃ record ∈ records, Fills record f
  distinct : (columns.map Field.key).Nodup
  /-- One row for each record, with one cell for each column. -/
  cells : List.Forall₂ (fun record row => List.Forall₂ (IsCell record) columns row) records rows

/-! ## The text of a rectangle -/

section Text

variable (style : Style)

/-- The values that the cells of a row bind. -/
def boundByCells (cells : List (Option SqlValue)) : List SqlValue :=
  cells.reduceOption.filter style.binds

def cellText (before : Nat) : Option SqlValue → String
  | some x => style.operandText before x
  | none => "DEFAULT"

def rowText (before : Nat) (cells : List (Option SqlValue)) : String :=
  let texts := inTurn (fun c => boundByCells style [c]) (cellText style) before cells
  "(" ++ ", ".intercalate texts ++ ")"

/-- Column list and rows. -/
def rectangleText (before : Nat) (columns : List Field) (rows : List (List (Option SqlValue))) :
    String :=
  "(" ++ ", ".intercalate (columns.map fun f => style.dialect.quoteName f.key) ++ ") VALUES " ++
    ", ".intercalate (inTurn (boundByCells style) (rowText style) before rows)

end Text

/-! ## Cells and rows -/

def cellFragment : Option SqlValue → Fragment
  | some x => [.operand x]
  | none => [.word "DEFAULT"]

def rowFragment (cells : List (Option SqlValue)) : Fragment :=
  Fragment.parenthesized (Fragment.commas (cells.map cellFragment))

section Text

variable {style : Style}

theorem operands_rowFragment (cells : List (Option SqlValue)) :
    (rowFragment cells).operands = cells.reduceOption := by
  have cell (c : Option SqlValue) : (cellFragment c).operands = c.toList := by cases c <;> rfl
  have values : cells.reduceOption = cells.flatMap Option.toList :=
    List.filterMap_eq_flatMap_toList id cells
  rw [rowFragment, Fragment.operands_parenthesized, Fragment.operands_commas, List.flatMap_map,
    values]
  exact List.flatMap_congr fun c _ => cell c

theorem bound_rowFragment (cells : List (Option SqlValue)) :
    (rowFragment cells).bound style = boundByCells style cells := by
  rw [Fragment.bound_eq_filter, operands_rowFragment, boundByCells]

theorem text_rowFragment (before : Nat) (cells : List (Option SqlValue)) :
    (rowFragment cells).text style before = rowText style before cells := by
  have binds (c : Option SqlValue) : (cellFragment c).bound style = boundByCells style [c] := by
    rw [Fragment.bound_eq_filter]
    cases c <;> rfl
  have writes (before : Nat) (c : Option SqlValue) :
      (cellFragment c).text style before = cellText style before c := by
    cases c with
    | none => rfl
    | some x =>
      show (Piece.operand x).text style before ++ "" = _
      rw [String.append_empty, Piece.text_operand, cellText]
  rw [rowFragment, Fragment.text_parenthesized, Fragment.commas,
    Fragment.text_separatedBy binds writes, rowText]

end Text

section Record

variable {record : Record} {f : Field}

theorem isSome_cell?_iff : (cell? record f).isSome = true ↔ Fills record f := by
  simp only [Option.isSome_iff_exists, cell?, Option.filter_eq_some_iff, Fills]

theorem ok_cell_iff {fragment : Fragment} :
    (cell record f).outcome = .ok fragment ↔
      ∃ c, IsCell record f c ∧ fragment = cellFragment c := by
  constructor
  · intro ok
    rcases ok_cell ok with ⟨empty, rfl⟩ | ⟨v, x, filled, coerced, rfl⟩
    · refine ⟨none, .default fun fills => ?_, rfl⟩
      rw [← isSome_cell?_iff, empty] at fills
      cases fills
    · obtain ⟨found, present⟩ := Option.filter_eq_some_iff.mp filled
      exact ⟨some x, .value found present coerced, rfl⟩
  · rintro ⟨c, isCell, rfl⟩
    cases isCell with
    | @value v x found present coerced =>
      have filled : cell? record f = some v := Option.filter_eq_some_iff.mpr ⟨found, present⟩
      rw [cell, filled]
      exact Draft.ok_return.mpr ⟨x, Draft.ok_takeFor.mpr coerced, rfl⟩
    | default empty =>
      rw [← isSome_cell?_iff, Bool.not_eq_true, Option.isSome_eq_false_iff,
        Option.isNone_iff_eq_none] at empty
      rw [cell, empty]
      rfl

theorem ok_row_iff {columns : List Field} {fragment : Fragment} :
    (row columns record).outcome = .ok fragment ↔
      ∃ cells, List.Forall₂ (IsCell record) columns cells ∧ fragment = rowFragment cells := by
  simp only [row, Draft.ok_return, Draft.ok_mapM_parts ok_cell_iff]
  constructor
  · rintro ⟨_, ⟨cells, each, rfl⟩, rfl⟩
    exact ⟨cells, each, rfl⟩
  · rintro ⟨cells, each, rfl⟩
    exact ⟨_, ⟨cells, each, rfl⟩, rfl⟩

/-- A row fails for a value that does not fit. -/
theorem error_row {columns : List Field} {e : Error}
    (error : (row columns record).outcome = .error e) : ∃ cause, e = .validation cause := by
  obtain ⟨f, -, error⟩ := Draft.exists_error_of_mapM (Draft.error_return.mp error)
  unfold cell at error
  cases filled : cell? record f with
  | none =>
    rw [filled] at error
    cases error
  | some v =>
    rw [filled] at error
    obtain ⟨cause, rfl⟩ := Draft.error_takeFor (Draft.error_return.mp error)
    exact ⟨_, rfl⟩

end Record

/-! ## Insertions -/

section Insertion

variable {r : Registry} {policy : FieldPolicy} {records : List Record}

theorem operands_rectangle (columns : List Field) (rows : List (List (Option SqlValue))) :
    (columnsAndRows columns (rows.map rowFragment)).operands = rows.flatMap List.reduceOption := by
  rw [operands_columnsAndRows, List.flatMap_map]
  exact List.flatMap_congr fun cells _ => operands_rowFragment cells

theorem text_rectangle (style : Style) (before : Nat) (columns : List Field)
    (rows : List (List (Option SqlValue))) :
    (columnsAndRows columns (rows.map rowFragment)).text style before =
      rectangleText style before columns rows := by
  have names : (Fragment.commas (columns.map fun f => [.column f.key])).text style before =
      ", ".intercalate (columns.map fun f => style.dialect.quoteName f.key) :=
    (Fragment.Fixed.commas (fun f => .column f.key) columns).text before
  have cells : (Fragment.commas (rows.map rowFragment)).text style before =
      ", ".intercalate (inTurn (boundByCells style) (rowText style) before rows) :=
    Fragment.text_separatedBy bound_rowFragment text_rowFragment ", " before rows
  calc (columnsAndRows columns (rows.map rowFragment)).text style before
    _ = "(" ++ (Fragment.commas (columns.map fun f => [.column f.key])).text style before ++ ")" ++
          (" VALUES " ++ (Fragment.commas (rows.map rowFragment)).text style before) := by
        rw [columnsAndRows, Fragment.text_append, Fragment.bound_eq_filter, operands_columnList,
          Fragment.text_parenthesized]
        rfl
    _ = rectangleText style before columns rows := by
        have closed : (")" : String) ++ " VALUES " = ") VALUES " := rfl
        rw [names, cells, rectangleText, ← closed]
        simp only [String.append_assoc]

theorem mem_usedColumns {f : Field} :
    f ∈ usedColumns r records ↔ f ∈ r.fields ∧ ∃ record ∈ records, Fills record f := by
  simp only [usedColumns, List.mem_filter, List.any_eq_true, isSome_cell?_iff]

/-- The used columns and the cells of the records in them are a rectangle. -/
theorem rectangle_usedColumns (formed : r.WellFormed) {rows : List (List (Option SqlValue))}
    (cells : List.Forall₂ (fun record row =>
      List.Forall₂ (IsCell record) (usedColumns r records) row) records rows) :
    Rectangle r records (usedColumns r records) rows where
  ordered := List.filter_sublist
  used _ := mem_usedColumns
  distinct := formed.nodup.sublist (List.filter_sublist.map Field.key)
  cells := cells

/-- An accepted insertion writes a rectangle in its used columns. -/
theorem ok_insertion_cells_iff {fragment : Fragment} :
    (insertion r policy records).outcome = .ok fragment ↔
      records ≠ [] ∧ (∀ record ∈ records, checkRecord r policy record = .ok ()) ∧
      ∃ rows, List.Forall₂ (fun record row =>
        List.Forall₂ (IsCell record) (usedColumns r records) row) records rows ∧
        fragment = columnsAndRows (usedColumns r records) (rows.map rowFragment) := by
  simp only [ok_insertion_iff, Draft.ok_mapM_parts ok_row_iff]
  refine and_congr_right fun _ => and_congr_right fun _ => ?_
  constructor
  · rintro ⟨_, ⟨rows, cells, rfl⟩, rfl⟩
    exact ⟨rows, cells, rfl⟩
  · rintro ⟨rows, cells, rfl⟩
    exact ⟨_, ⟨rows, cells, rfl⟩, rfl⟩

/-- Only a used column can have a value that does not fit. -/
theorem exists_cells_iff :
    (∃ rows, List.Forall₂ (fun record row =>
        List.Forall₂ (IsCell record) (usedColumns r records) row) records rows) ↔
      ∀ record ∈ records, ∀ f ∈ r.fields, ∃ c, IsCell record f c := by
  simp only [exists_forall₂_iff]
  refine forall₂_congr fun record mem => ⟨fun each f known => ?_, fun each f used => ?_⟩
  · by_cases fills : Fills record f
    · exact each f (mem_usedColumns.mpr ⟨known, record, mem, fills⟩)
    · exact ⟨none, .default fills⟩
  · exact each f (mem_usedColumns.mp used).1

theorem checkRecord_ignore (record : Record) :
    (checkRecord r .ignore record = .ok () ↔ HasData r record) ∧
      (checkRecord r .ignore record = .error .noData ↔ ¬ HasData r record) := by
  have any : (r.fields.any fun f => !f.isPrimaryKey && (cell? record f).isSome) = true ↔
      HasData r record := by
    simp [HasData, List.any_eq_true, isSome_cell?_iff]
  have checked : checkRecord r .ignore record =
      if r.fields.any fun f => !f.isPrimaryKey && (cell? record f).isSome then .ok ()
      else .error .noData := rfl
  rw [checked]
  by_cases data : HasData r record
  · simp [any.mpr data, data]
  · simp [any, data]

theorem exists_ok_insertion_iff :
    (∃ fragment, (insertion r policy records).outcome = .ok fragment) ↔
      records ≠ [] ∧ (∀ record ∈ records, checkRecord r policy record = .ok ()) ∧
      ∀ record ∈ records, ∀ f ∈ r.fields, ∃ c, IsCell record f c := by
  simp only [ok_insertion_cells_iff, ← exists_cells_iff]
  constructor
  · rintro ⟨_, given, checked, rows, cells, -⟩
    exact ⟨given, checked, rows, cells⟩
  · rintro ⟨given, checked, rows, cells⟩
    exact ⟨_, given, checked, rows, cells, rfl⟩

/-- Records are checked for data before any of their values is looked at. -/
theorem insertion_noData_iff :
    (insertion r .ignore records).outcome = .error .noData ↔
      records = [] ∨ ∃ record ∈ records, ¬ HasData r record := by
  rw [insertion_eq]
  cases records with
  | nil => simp
  | cons record records =>
    rw [if_neg (by simp), or_iff_right (List.cons_ne_nil _ _)]
    constructor
    · intro error
      rcases Draft.error_bind.mp error with unchecked | ⟨_, -, error⟩
      · obtain ⟨other, mem, lacking⟩ := Except.exists_error_of_forM unchecked
        exact ⟨other, mem, (checkRecord_ignore other).2.mp lacking⟩
      · obtain ⟨other, -, error⟩ := Draft.exists_error_of_mapM (Draft.error_return.mp error)
        obtain ⟨cause, same⟩ := error_row error
        cases same
    · rintro ⟨other, mem, lacking⟩
      refine Draft.error_bind.mpr (.inl ?_)
      cases checked : (record :: records).forM (checkRecord r .ignore) with
      | ok =>
        have data := Except.forall_of_forM checked other mem
        exact absurd ((checkRecord_ignore other).1.mp data) lacking
      | error e =>
        obtain ⟨first, -, refused⟩ := Except.exists_error_of_forM checked
        by_cases data : HasData r first
        · rw [(checkRecord_ignore first).1.mpr data] at refused
          cases refused
        · rw [(checkRecord_ignore first).2.mpr data] at refused
          cases refused
          rfl

end Insertion

/-- **A batch insertion is a rectangle.** What an insertion adds to its session is the text of a
rectangle of its records, with the values of its cells bound row by row. Without a strict policy
it is accepted when there are records, all have data and every value fits its column; it is
refused for want of data when there is no record, or one that fills no column beside the key. -/
theorem insertion_rectangle {schema : Json} {r : Registry}
    (built : Registry.ofSchema schema = .ok r) (s : Session) (policy : FieldPolicy)
    (records : List Record) :
    (∀ sql after, s.add (some <$> insertion r policy records) = (.ok (some sql), after) →
      records ≠ [] ∧ ∃ columns rows, Rectangle r records columns rows ∧
        sql = rectangleText s.style s.bound.length columns rows ∧
        after = ⟨s.style, s.bound ++ rows.flatMap (boundByCells s.style)⟩) ∧
    ((∃ sql after, s.add (some <$> insertion r .ignore records) = (.ok (some sql), after)) ↔
      records ≠ [] ∧ (∀ record ∈ records, HasData r record) ∧
        ∀ record ∈ records, ∀ f ∈ r.fields, ∃ c, IsCell record f c) ∧
    ((s.add (some <$> insertion r .ignore records)).1 = .error .noData ↔
      records = [] ∨ ∃ record ∈ records, ¬ HasData r record) := by
  refine ⟨fun sql after added => ?_, ?_, Session.add_some_error_iff.trans insertion_noData_iff⟩
  · obtain ⟨_, ok, rfl, rfl⟩ := (Session.add_some_iff (takes_insertion records)).mp added
    obtain ⟨given, -, rows, cells, rfl⟩ := ok_insertion_cells_iff.mp ok
    refine ⟨given, _, rows, rectangle_usedColumns (Registry.wellFormed_ofSchema built) cells,
      text_rectangle _ _ _ _, ?_⟩
    rw [Fragment.bound_eq_filter, operands_rectangle, List.filter_flatMap]
    rfl
  · rw [Session.exists_add_some_iff (takes_insertion records), exists_ok_insertion_iff]
    simp only [(checkRecord_ignore _).1]

/-- Two residents, each with a gap where the other has a value. -/
theorem insertion_rectangle_residents :
    Registry.ofSchema residents = .ok ⟨[residentName, residentFloor]⟩ ∧
    ∃ columns rows,
      Rectangle ⟨[residentName, residentFloor]⟩
        [⟨[("address", .obj [("house", .obj [("floor", .num (.int 3))])])]⟩,
          ⟨[("name", .str "Ada")]⟩] columns rows ∧
      "(\"name\", \"address___house___floor\") VALUES (DEFAULT, $2), ($3, DEFAULT)" =
        rectangleText ⟨.postgres, false⟩ 1 columns rows ∧
      (⟨⟨.postgres, false⟩, [.text "kept", .integer 3, .text "Ada"]⟩ : Session) =
        ⟨⟨.postgres, false⟩, .text "kept" :: rows.flatMap (boundByCells ⟨.postgres, false⟩)⟩ := by
  have built : Registry.ofSchema residents = .ok ⟨[residentName, residentFloor]⟩ := rfl
  exact ⟨built, ((insertion_rectangle built ⟨⟨.postgres, false⟩, [.text "kept"]⟩ .ignore _).1 _ _
    (by decide +kernel)).2⟩

end DocTable.Clause
