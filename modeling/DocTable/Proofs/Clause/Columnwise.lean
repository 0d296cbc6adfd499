import DocTable.Clause.Values

/-!
# Insertions column by column

An insertion marks the places that its records fill, and takes the cells of every record from
these places. Each column can be looked up in each record instead, after all records are
checked (`insertion_eq`).
-/

namespace DocTable.Clause
set_option autoImplicit false

variable {r : Registry} {policy : FieldPolicy}

/-- A record has to fill a column beside the key. -/
def checkRecord (r : Registry) (policy : FieldPolicy) (record : Record) : Except Error Unit := do
  checkNames r policy record
  if r.fields.any fun f => !f.isPrimaryKey && (cell? record f).isSome then .ok ()
  else .error .noData

/-- The columns that any of the records fills. -/
def usedColumns (r : Registry) (records : List Record) : List Field :=
  r.fields.filter fun f => records.any fun record => (cell? record f).isSome

def cell (record : Record) (f : Field) : Draft Fragment := cellOf f (cell? record f)

def row (columns : List Field) (record : Record) : Draft Fragment := do
  let cells ← columns.mapM (cell record)
  return Fragment.parenthesized (Fragment.commas cells)

theorem readCells_eq (record : Record) :
    readCells r policy record =
      (checkRecord r policy record).map fun _ => r.fields.map (cell? record) := by
  have filled : ((r.fields.zip (r.fields.map (cell? record))).any
      fun c => !c.1.isPrimaryKey && c.2.isSome) =
        r.fields.any fun f => !f.isPrimaryKey && (cell? record f).isSome := by
    rw [← List.map_prod_left_eq_zip, List.any_map]
    rfl
  unfold readCells checkRecord
  dsimp only
  rw [filled]
  cases checkNames r policy record with
  | error e => rfl
  | ok =>
    simp only [bind, Except.bind]
    split <;> rfl

/-- Marks that are told by the columns are told by them after a record as well. -/
theorem mark_map (marked : Field → Bool) (record : Record) :
    mark (r.fields.map marked) (r.fields.map (cell? record)) =
      r.fields.map fun f => marked f || (cell? record f).isSome := by
  rw [mark, List.zipWith_map, List.zipWith_self]

/-- Reading records is checking them one by one; a place is marked when its column was, or when
one of the records fills it. -/
theorem readRecords_eq (marked : Field → Bool) (records : List Record) :
    readRecords r policy (r.fields.map marked) records =
      (records.forM (checkRecord r policy)).map fun _ =>
        (r.fields.map fun f => marked f || records.any fun record => (cell? record f).isSome,
          records.map fun record => r.fields.map (cell? record)) := by
  induction records generalizing marked with
  | nil => simp [readRecords, pure, Except.pure, Except.map]
  | cons record records ih =>
    show _ = Except.map _ (checkRecord r policy record >>= fun _ => records.forM _)
    rw [readRecords, readCells_eq]
    cases checkRecord r policy record with
    | error e => rfl
    | ok =>
      simp only [Except.map, bind, Except.bind]
      rw [mark_map, ih]
      cases records.forM (checkRecord r policy) with
      | error e => rfl
      | ok => simp [Except.map, Bool.or_assoc, pure, Except.pure]

theorem mapM_congr {α β : Type} {f g : α → Draft β} {xs : List α} (same : ∀ x ∈ xs, f x = g x) :
    xs.mapM f = xs.mapM g := by
  induction xs with
  | nil => rfl
  | cons x xs ih =>
    obtain ⟨first, others⟩ := List.forall_mem_cons.mp same
    rw [List.mapM_cons, List.mapM_cons, first, ih others]

section Places

variable (marked : Field → Bool)

/-- The columns at places that are told by their columns. -/
theorem columnsAt_map :
    columnsAt r (r.fields.map marked) = r.fields.zipIdx.filter fun c => marked c.1 := by
  refine List.filter_congr fun c mem => ?_
  rw [List.getElem?_map, List.mem_zipIdx_iff_getElem?.mp mem]
  rfl

theorem map_fst_columnsAt :
    (columnsAt r (r.fields.map marked)).map Prod.fst = r.fields.filter marked := by
  have places : r.fields.zipIdx.map Prod.fst = r.fields := List.zipIdx_map_fst 0 r.fields
  calc (columnsAt r (r.fields.map marked)).map Prod.fst
    _ = (r.fields.zipIdx.filter (marked ∘ Prod.fst)).map Prod.fst := by rw [columnsAt_map]; rfl
    _ = r.fields.filter marked := by rw [← List.filter_map, places]

/-- At the place of a column stands the cell of the column. -/
theorem rowOf_columnsAt (record : Record) :
    rowOf (columnsAt r (r.fields.map marked)) (r.fields.map (cell? record)) =
      row (r.fields.filter marked) record := by
  have cells : ∀ c ∈ columnsAt r (r.fields.map marked),
      cellOf c.1 (r.fields.map (cell? record))[c.2]?.join = cell record c.1 := by
    intro c mem
    have place := List.mem_zipIdx_iff_getElem?.mp (List.mem_filter.mp mem).1
    rw [List.getElem?_map, place]
    rfl
  rw [rowOf, row, mapM_congr cells, ← map_fst_columnsAt, List.mapM_map]
  rfl

end Places

/-- An insertion is composed of the used columns and a row for each record. -/
theorem insertion_eq (records : List Record) :
    insertion r policy records =
      if records.isEmpty then Draft.fail .noData
      else do
        Draft.ofExcept (records.forM (checkRecord r policy))
        let rows ← records.mapM (row (usedColumns r records))
        return columnsAndRows (usedColumns r records) rows := by
  have unmarked : List.replicate r.size false = r.fields.map fun _ => false :=
    List.map_const'.symm
  unfold insertion
  split
  · rfl
  rw [unmarked, readRecords_eq]
  cases records.forM (checkRecord r policy) with
  | error e => rfl
  | ok =>
    have rows : ((records.map fun record => r.fields.map (cell? record)).mapM
        (rowOf (columnsAt r (r.fields.map fun f => records.any fun record =>
          (cell? record f).isSome)))) = records.mapM (row (usedColumns r records)) := by
      rw [List.mapM_map]
      exact mapM_congr fun record _ => rowOf_columnsAt _ record
    rw [← rows]
    unfold usedColumns
    rw [← map_fst_columnsAt]
    rfl

end DocTable.Clause
