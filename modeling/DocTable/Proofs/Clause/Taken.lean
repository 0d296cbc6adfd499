import DocTable.Clause.Ids
import DocTable.Proofs.Clause.Columnwise
import DocTable.Proofs.Statement.Taken

/-!
# The operands that clauses take

Lists of ids, insertions and assignments take the operands of what they compose, in the order
in which these are written: ids as they are listed, the cells of an insertion row by row, and
the values of assignments as their leaves come.
-/

namespace DocTable.Clause
set_option autoImplicit false

variable {r : Registry} {policy : FieldPolicy} {f : Fragment}

/-- A clause of a list that is not empty. -/
theorem commas_of_ok {α : Type} {found : Except Error (List α)} {write : α → Fragment}
    (ok : (do
      let xs ← found
      return if xs.isEmpty then none else some (Fragment.commas (xs.map write))) =
        .ok (some f)) : ∃ xs : List α, found = .ok xs ∧ f = Fragment.commas (xs.map write) := by
  cases found with
  | error e => cases ok
  | ok xs =>
    have chosen : (if xs.isEmpty then none else some (Fragment.commas (xs.map write))) = some f :=
      Except.ok.inj ok
    split at chosen
    · cases chosen
    · exact ⟨xs, rfl, (Option.some.inj chosen).symm⟩

/-- Names and directions are no operands. -/
theorem operands_commas_of_none {α : Type} {write : α → Fragment}
    (none : ∀ x, (write x).operands = []) (xs : List α) :
    (Fragment.commas (xs.map write)).operands = [] := by
  rw [Fragment.operands_commas, List.flatMap_map]
  exact List.flatMap_eq_nil_iff.mpr fun x _ => none x

theorem operands_select {names : List String}
    (ok : select r policy names = .ok (some f)) : f.operands = [] := by
  obtain ⟨fields, -, rfl⟩ := commas_of_ok ok
  exact operands_commas_of_none (fun _ => rfl) fields

theorem operands_orderBy {tokens : List String}
    (ok : orderBy r policy tokens = .ok (some f)) : f.operands = [] := by
  obtain ⟨terms, -, rfl⟩ := commas_of_ok ok
  exact operands_commas_of_none (fun _ => rfl) terms

theorem takes_idValues (ids : List String) : (idValues ids).Takes Fragment.operands := by
  refine .mapUnless (.mapM (fun id => .take (.text id)) (distinctIds ids)) fun values => ?_
  rw [Fragment.operands_commas, List.flatMap_map]
  rfl

/-! ## Insertions -/

theorem takes_cell (record : Record) (f : Field) : (cell record f).Takes Fragment.operands := by
  unfold cell
  cases cell? record f with
  | some v => exact .map (.takeFor f v) fun _ => rfl
  | none => exact .pure rfl

theorem takes_row (columns : List Field) (record : Record) :
    (row columns record).Takes Fragment.operands := by
  refine .map (.mapM (takes_cell record) columns) fun cells => ?_
  rw [Fragment.operands_parenthesized, Fragment.operands_commas]

theorem operands_columnList (columns : List Field) :
    (Fragment.parenthesized (Fragment.commas (columns.map fun f => [.column f.key]))).operands =
      [] := by
  rw [Fragment.operands_parenthesized]
  exact operands_commas_of_none (fun _ => rfl) columns

/-- The operands of an insertion are those of its rows. -/
theorem operands_columnsAndRows (columns : List Field) (rows : List Fragment) :
    (columnsAndRows columns rows).operands = rows.flatMap Fragment.operands := by
  rw [columnsAndRows, Fragment.operands_append, operands_columnList]
  exact Fragment.operands_commas rows

theorem takes_insertion (records : List Record) :
    (insertion r policy records).Takes Fragment.operands := by
  rw [insertion_eq]
  split
  · exact .fail _
  · exact .after fun _ => .map (.mapM (takes_row _) records) (operands_columnsAndRows _)

/-! ## Assignments -/

theorem takes_assignment (leaf : String × Json) :
    (assignment r policy leaf.1 leaf.2).Takes fun fs => fs.flatMap Fragment.operands := by
  unfold assignment
  cases r.get? leaf.1 with
  | none =>
    cases policy with
    | ignore => exact .pure rfl
    | reject => exact .fail _
  | some f =>
    dsimp only
    split
    · exact .pure rfl
    · exact .map (.takeFor f leaf.2) fun _ => rfl

theorem takes_assignments (record : Record) :
    (assignments r policy record).Takes Fragment.operands := by
  refine .mapUnless (.mapM takes_assignment record.flatten) fun each => ?_
  rw [Fragment.operands_commas, List.flatten_eq_flatMap, List.flatMap_assoc]
  rfl

end DocTable.Clause
