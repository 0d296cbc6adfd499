import DocTable.Proofs.Record.Leaves
import DocTable.Proofs.Registry.OfSchema
import DocTable.Proofs.Statement.Names
import DocTable.Proofs.Table.Insertion

/-!
# The columns of a clause

Whatever names a client gives, a clause quotes keys of the registry only, for a name is
written by the field that it stands for. An insertion lists a column once
(`names_insertion`), and a partial record assigns it once (`names_assignments`).
-/

namespace DocTable.Clause
set_option autoImplicit false

variable {r : Registry} {policy : FieldPolicy} {f : Fragment}

/-! ## Columns and orders -/

theorem mem_fields_of_lookUp {name : String} {field : Field}
    (ok : lookUp r policy name = .ok (some field)) : field ∈ r.fields := by
  unfold lookUp at ok
  cases resolved : r.resolve? name with
  | none =>
    rw [resolved] at ok
    cases policy <;> cases ok
  | some g =>
    rw [resolved] at ok
    cases ok
    exact Registry.mem_fields_of_resolve? resolved

/-- What every item that is found has, all items of the list have. -/
theorem forall_mem_distinct {α β : Type} {find : α → Except Error (Option β)} {has : β → Prop}
    (each : ∀ {x y}, find x = .ok (some y) → has y) {xs : List α} {found : List (Option β)}
    (ok : xs.mapM find = .ok found) (key : β → String) :
    ∀ y ∈ distinctBy key (found.filterMap id), has y := by
  intro y mem
  obtain ⟨o, listed, rfl⟩ := List.mem_filterMap.mp (mem_of_mem_distinctBy mem)
  obtain ⟨x, -, here⟩ := exists_of_forall₂ (Except.ok_mapM.mp ok).flip listed
  exact each here

theorem mem_fields_of_projection {names : List String} {fields : List Field}
    (ok : projection r policy names = .ok fields) : ∀ field ∈ fields, field ∈ r.fields := by
  obtain ⟨found, looked, same⟩ := Except.ok_bind.mp ok
  obtain rfl := Except.ok.inj same
  exact forall_mem_distinct mem_fields_of_lookUp looked Field.key

theorem mem_fields_of_sortTerm {token : String} {term : SortTerm}
    (ok : sortTerm r policy token = .ok (some term)) : term.field ∈ r.fields := by
  unfold sortTerm at ok
  split at ok
  · cases ok
  · dsimp only at ok
    cases looked : lookUp r policy (sortToken token).1 with
    | error e =>
      rw [looked] at ok
      cases ok
    | ok found =>
      rw [looked] at ok
      cases found with
      | none => cases ok
      | some field =>
        cases ok
        exact mem_fields_of_lookUp looked

theorem mem_fields_of_ordering {tokens : List String} {terms : List SortTerm}
    (ok : ordering r policy tokens = .ok terms) : ∀ term ∈ terms, term.field ∈ r.fields := by
  obtain ⟨found, sorted, same⟩ := Except.ok_bind.mp ok
  obtain rfl := Except.ok.inj same
  exact forall_mem_distinct mem_fields_of_sortTerm sorted _

variable (d : Dialect)

theorem quoteName_mem {field : Field} (mem : field ∈ r.fields) :
    d.quoteName field.key ∈ r.keys.map d.quoteName :=
  List.mem_map_of_mem (List.mem_map_of_mem mem)

theorem names_columns (fields : List Field) :
    (Fragment.commas (fields.map fun f => [.column f.key])).names d =
      (fields.map Field.key).map d.quoteName := by
  induction fields with
  | nil => rfl
  | cons field fields ih =>
    rw [Fragment.names_commas] at ih ⊢
    rw [List.map_cons, List.flatMap_cons, ih]
    rfl

theorem names_select {names : List String} (ok : select r policy names = .ok (some f)) :
    f.names d ⊆ r.keys.map d.quoteName := by
  obtain ⟨fields, projected, rfl⟩ := commas_of_ok ok
  rw [names_columns]
  exact List.map_subset _ (List.map_subset _ (mem_fields_of_projection projected))

theorem names_orderBy {tokens : List String} (ok : orderBy r policy tokens = .ok (some f)) :
    f.names d ⊆ r.keys.map d.quoteName := by
  obtain ⟨terms, ordered, rfl⟩ := commas_of_ok ok
  rw [Fragment.names_commas]
  intro name mem
  obtain ⟨part, written, mem⟩ := List.mem_flatMap.mp mem
  obtain ⟨term, inside, rfl⟩ := List.mem_map.mp written
  obtain rfl : name = d.quoteName term.field.key := by simpa [SortTerm.fragment] using mem
  exact quoteName_mem d (mem_fields_of_ordering ordered term inside)

/-! ## Records -/

theorem names_row {record : Record} {columns : List Field} {cells : Fragment}
    (ok : (row columns record).outcome = .ok cells) : cells.names d = [] := by
  obtain ⟨each, written, rfl⟩ := Draft.ok_return.mp ok
  rw [Fragment.names_parenthesized, Fragment.names_commas, List.flatMap_eq_nil_iff]
  refine Draft.forall_of_mapM (fun ok => ?_) written
  rcases ok_cell ok with ⟨-, rfl⟩ | ⟨-, -, -, -, rfl⟩ <;> rfl

/-- The names of an insertion are its column list: rows have none. -/
theorem names_insertion {records : List Record}
    (ok : (insertion r policy records).outcome = .ok f) :
    f.names d = ((usedColumns r records).map Field.key).map d.quoteName := by
  obtain ⟨-, -, rows, written, rfl⟩ := ok_insertion_iff.mp ok
  have noNames : rows.flatMap (Fragment.names d) = [] :=
    List.flatMap_eq_nil_iff.mpr (Draft.forall_of_mapM (names_row d) written)
  rw [columnsAndRows, Fragment.names_append, Fragment.names_parenthesized, names_columns,
    Fragment.names_word,
    Fragment.names_commas, noNames, List.append_nil]

/-- A leaf assigns its own column, and never the key. -/
theorem names_assignment (distinct : r.keys.Nodup) {key : String} {v : Json} {fs : List Fragment}
    (ok : (assignment r policy key v).outcome = .ok fs) :
    fs.flatMap (Fragment.names d) = [] ∨
      (fs.flatMap (Fragment.names d) = [d.quoteName key] ∧ key ∈ r.keys ∧
        key ≠ Field.primaryKeyName) := by
  rcases ok_assignment ok with ⟨-, -, rfl⟩ | ⟨-, -, -, rfl⟩ |
    ⟨field, value, found, notKey, -, rfl⟩
  · exact .inl rfl
  · exact .inl rfl
  · have same := Registry.key_of_get? found
    refine .inr ⟨by simp [same], ?_, ?_⟩
    · exact same ▸ List.mem_map_of_mem (Registry.mem_fields_of_get? found)
    · intro isKey
      have one := Registry.eq_of_key distinct (Registry.mem_fields_of_get? found)
        List.mem_cons_self (same.trans isKey)
      rw [one] at notKey
      cases notKey

/-- The assignments of a record are about different columns. -/
theorem names_assignments (distinct : r.keys.Nodup) {record : Record}
    (ok : (assignments r policy record).outcome = .ok f) :
    ∃ keys : List String, f.names d = keys.map d.quoteName ∧ keys.Nodup ∧ keys ⊆ r.keys ∧
      Field.primaryKeyName ∉ keys := by
  obtain ⟨each, taken, -, rfl⟩ := ok_assignments_iff.mp ok
  have leaves : ∃ keys : List String,
      each.flatten.flatMap (Fragment.names d) = keys.map d.quoteName ∧
        keys.Sublist record.flatten.keys ∧ keys ⊆ r.keys ∧ Field.primaryKeyName ∉ keys := by
    have all := Draft.ok_mapM.mp taken
    generalize record.flatten = members at all
    clear ok taken
    induction all with
    | nil => exact ⟨[], rfl, .slnil, List.nil_subset _, List.not_mem_nil⟩
    | @cons leaf here members rest first _ ih =>
      obtain ⟨keys, names, sublist, known, notKey⟩ := ih
      rw [List.flatten_cons, List.flatMap_append, names]
      rcases names_assignment d distinct first with none | ⟨one, inside, other⟩
      · rw [none]
        exact ⟨keys, rfl, sublist.cons _, known, notKey⟩
      · rw [one]
        exact ⟨leaf.1 :: keys, rfl, sublist.cons_cons _, List.cons_subset.mpr ⟨inside, known⟩,
          by simp [notKey, Ne.symm other]⟩
  obtain ⟨keys, names, sublist, known, notKey⟩ := leaves
  refine ⟨keys, ?_, sublist.nodup record.nodup_keys_flatten, known, notKey⟩
  rw [Fragment.names_commas, names]

end DocTable.Clause
