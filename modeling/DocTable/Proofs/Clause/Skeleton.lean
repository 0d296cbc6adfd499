import DocTable.Proofs.Condition.Skeleton
import DocTable.Proofs.Record.Skeleton
import DocTable.Proofs.Table.Insertion

/-!
# Clauses without their values

What a list of ids, a row of values and a list of assignments are written as depends on how
many ids there are, which cells are filled, and which leaves are null (`masked_idValues`,
`masked_insertion`, `masked_assignments`).
-/

namespace DocTable.Clause
set_option autoImplicit false

variable {r : Registry} {policy : FieldPolicy} {f g : Fragment}

/-! ## Ids -/

theorem masked_idValues {ids others : List String}
    (same : (distinctIds ids).length = (distinctIds others).length)
    (ok : (idValues ids).outcome = .ok f) (ok' : (idValues others).outcome = .ok g) :
    f.masked = g.masked := by
  have texts (ids : List String) :
      (ids.map SqlValue.text).map SqlValue.masked = List.replicate ids.length (.text "") := by
    rw [List.map_map]
    exact List.map_const'
  rw [ok_idValues ok, ok_idValues ok', Fragment.masked_values, Fragment.masked_values, texts,
    texts, same]

/-! ## Cells and rows -/

/-- The columns that a record fills, by their places. -/
def filled (r : Registry) (record : Record) : List Bool :=
  r.fields.map fun f => (cell? record f).isSome

def maskedCell (record : Record) (f : Field) : Fragment :=
  if (cell? record f).isSome then [.operand (.text "")] else [.word "DEFAULT"]

def maskedRow (columns : List Field) (record : Record) : Fragment :=
  Fragment.parenthesized (Fragment.commas (columns.map (maskedCell record)))

/-- What fills a cell is not null. -/
theorem masked_cell {record : Record} {field : Field}
    (ok : (cell record field).outcome = .ok f) : f.masked = maskedCell record field := by
  rw [maskedCell]
  rcases ok_cell ok with ⟨empty, rfl⟩ | ⟨v, value, filled, coerced, rfl⟩
  · rw [empty]
    rfl
  · have present : v.isPresent = true := (Option.filter_eq_some_iff.mp filled).2
    have notNull : v.isNull = false := by
      cases v with
      | null => cases present
      | _ => rfl
    rw [filled, Fragment.masked_cons, Piece.masked, Field.masked_of_coerce coerced, Json.masked,
      notNull]
    rfl

theorem masked_row {columns : List Field} {record : Record}
    (ok : (row columns record).outcome = .ok f) : f.masked = maskedRow columns record := by
  obtain ⟨cells, composed, rfl⟩ := Draft.ok_return.mp ok
  rw [Fragment.masked_parenthesized, Fragment.masked_commas,
    Draft.map_of_mapM masked_cell composed]
  rfl

theorem masked_columns (fields : List Field) :
    (Fragment.commas (fields.map fun f => [.column f.key])).masked =
      Fragment.commas (fields.map fun f => [.column f.key]) := by
  rw [Fragment.masked_commas, List.map_map]
  rfl

theorem ok_insertion_masked {records : List Record}
    (ok : (insertion r policy records).outcome = .ok f) :
    f.masked = Fragment.parenthesized
        (Fragment.commas ((usedColumns r records).map fun f => [.column f.key])) ++
      .word " VALUES " :: Fragment.commas (records.map (maskedRow (usedColumns r records))) := by
  obtain ⟨-, -, rows, written, rfl⟩ := ok_insertion_iff.mp ok
  rw [columnsAndRows, Fragment.masked_append, Fragment.masked_parenthesized, masked_columns,
    Fragment.masked_cons, Fragment.masked_commas, Draft.map_of_mapM masked_row written]
  rfl

section
variable {records others : List Record}
  (same : List.Forall₂ (fun record other => filled r record = filled r other) records others)
include same

theorem usedColumns_of_filled : usedColumns r records = usedColumns r others := by
  apply List.filter_congr
  intro f field
  induction same with
  | nil => rfl
  | cons first _ ih =>
    rw [List.any_cons, List.any_cons, ih, List.map_inj_left.mp first f field]

theorem maskedRows_of_filled {columns : List Field} (known : columns ⊆ r.fields) :
    records.map (maskedRow columns) = others.map (maskedRow columns) := by
  induction same with
  | nil => rfl
  | @cons record other _ _ first _ ih =>
    have cells : columns.map (maskedCell record) = columns.map (maskedCell other) := by
      apply List.map_congr_left
      intro f mem
      rw [maskedCell, maskedCell, List.map_inj_left.mp first f (known mem)]
    rw [List.map_cons, List.map_cons, ih, maskedRow, maskedRow, cells]

end

/-- Insertions that fill the same cells are written alike. -/
theorem masked_insertion {records others : List Record}
    (same : records.map (filled r) = others.map (filled r))
    (ok : (insertion r policy records).outcome = .ok f)
    (ok' : (insertion r policy others).outcome = .ok g) : f.masked = g.masked := by
  have each : List.Forall₂ (fun record other => filled r record = filled r other)
      records others := by
    rw [← List.forall₂_map_right_iff, ← List.forall₂_map_left_iff, same]
    exact List.forall₂_refl _
  have known : usedColumns r others ⊆ r.fields := List.filter_sublist.subset
  have rows := maskedRows_of_filled each known
  rw [ok_insertion_masked ok, ok_insertion_masked ok', usedColumns_of_filled each, rows]

/-! ## Assignments -/

/-- What a leaf with some value assigns, if there is a column to assign. -/
def assigned (r : Registry) (key : String) (v : SqlValue) : List Fragment :=
  match r.get? key with
  | some f => if f.isPrimaryKey then [] else [[.column f.key, .word " = ", .operand v]]
  | none => []

theorem masked_assignment {leaf : String × Json} {fs : List Fragment}
    (ok : (assignment r policy leaf.1 leaf.2).outcome = .ok fs) :
    fs.map Fragment.masked = assigned r leaf.1 leaf.2.masked := by
  rcases ok_assignment ok with ⟨found, -, rfl⟩ | ⟨field, found, key, rfl⟩ |
    ⟨field, value, found, notKey, coerced, rfl⟩
  · rw [assigned, found]
    rfl
  · simp only [assigned, found, if_pos key]
    rfl
  · simp only [assigned, found, notKey, Bool.false_eq_true, if_false,
      ← Field.masked_of_coerce coerced]
    rfl

theorem ok_assignments_masked {record : Record}
    (ok : (assignments r policy record).outcome = .ok f) :
    f.masked = Fragment.commas
      (Record.flatten ⟨record.skeleton⟩ |>.flatMap fun leaf =>
        assigned r leaf.1 leaf.2.masked) := by
  obtain ⟨each, assigns, -, rfl⟩ := ok_assignments_iff.mp ok
  rw [Fragment.masked_commas, List.map_flatten, Draft.map_of_mapM masked_assignment assigns,
    ← List.flatMap_def, Record.flatten_skeleton, List.flatMap_map]
  simp only [Record.leafSkeleton, Json.masked_skeleton]

/-- Records with one skeleton are assigned alike. -/
theorem masked_assignments {record other : Record} (same : record.skeleton = other.skeleton)
    (ok : (assignments r policy record).outcome = .ok f)
    (ok' : (assignments r policy other).outcome = .ok g) : f.masked = g.masked := by
  rw [ok_assignments_masked ok, ok_assignments_masked ok', same]

end DocTable.Clause
