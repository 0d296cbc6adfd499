import DocTable.Proofs.Clause.Payload
import DocTable.Proofs.Condition.Named
import DocTable.Proofs.Table.Insertion

/-!
# Names that strict clauses use

Under the strict policy the name of every column, order and leaf that a clause is composed
for is the name of a field, and stands in the clause. An insertion is composed only of leaves
(`plain_of_insertion`), so what it finds for a column is one that is spelled for it.
-/

namespace DocTable.Clause
set_option autoImplicit false

/-- The name stands for a field, and the fragment names its column. -/
def Uses (r : Registry) (name : String) (part : Fragment) : Prop :=
  ∃ f, r.resolve? name = some f ∧ Piece.column f.key ∈ part

variable {r : Registry}

/-! ## Columns and orders -/

theorem ok_lookUp_strict {name : String} {found : Option Field}
    (ok : lookUp r .reject name = .ok found) : ∃ f, r.resolve? name = some f ∧ found = some f := by
  unfold lookUp at ok
  cases resolved : r.resolve? name with
  | none =>
    rw [resolved] at ok
    cases ok
  | some f =>
    rw [resolved] at ok
    exact ⟨f, rfl, (Except.ok.inj ok).symm⟩

/-- What is found stays in a clause without repetitions, perhaps by another of its key. -/
theorem column_mem_clause {α : Type} (key : α → String) (write : α → Fragment)
    (writes : ∀ x, Piece.column (key x) ∈ write x) {found : List (Option α)} {x : α}
    (mem : some x ∈ found) {chosen : Option Fragment}
    (clause : (if (distinctBy key (found.filterMap id)).isEmpty then none
      else some (Fragment.commas ((distinctBy key (found.filterMap id)).map write))) = chosen) :
    ∃ part, chosen = some part ∧ Piece.column (key x) ∈ part := by
  have listed : x ∈ found.filterMap id := List.mem_filterMap.mpr ⟨_, mem, rfl⟩
  obtain ⟨y, kept, same⟩ : ∃ y ∈ distinctBy key (found.filterMap id), key y = key x :=
    exists_mem_distinctBy listed
  have some : (distinctBy key (found.filterMap id)).isEmpty = false :=
    List.isEmpty_eq_false_iff.mpr (List.ne_nil_of_mem kept)
  rw [some, if_neg Bool.false_ne_true] at clause
  refine ⟨_, clause.symm, ?_⟩
  rw [← same]
  exact (Fragment.infix_separatedBy ", " (List.mem_map_of_mem kept)).subset (writes y)

theorem uses_select {names : List String} {chosen : Option Fragment}
    (ok : select r .reject names = .ok chosen) :
    ∀ name ∈ names, ∃ columns, chosen = some columns ∧ Uses r name columns := by
  intro name mem
  obtain ⟨fields, projected, ok⟩ := Except.ok_bind.mp ok
  obtain ⟨found, looked, same⟩ := Except.ok_bind.mp projected
  obtain rfl := Except.ok.inj same
  obtain ⟨x, inside, looked⟩ := Except.exists_of_mapM looked mem
  obtain ⟨f, resolved, rfl⟩ := ok_lookUp_strict looked
  obtain ⟨columns, chosen, column⟩ := column_mem_clause Field.key
    (fun f => [.column f.key]) (fun _ => List.mem_cons_self) inside (Except.ok.inj ok)
  exact ⟨columns, chosen, f, resolved, column⟩

theorem ok_sortTerm_strict {token : String} {found : Option SortTerm}
    (notBlank : Text.isBlankText token = false) (ok : sortTerm r .reject token = .ok found) :
    ∃ f, r.resolve? (sortToken token).1 = some f ∧ found = some ⟨f, (sortToken token).2⟩ := by
  rw [sortTerm, notBlank, if_neg Bool.false_ne_true] at ok
  dsimp only at ok
  cases looked : lookUp r .reject (sortToken token).1 with
  | error e =>
    rw [looked] at ok
    cases ok
  | ok field =>
    rw [looked] at ok
    obtain ⟨f, resolved, rfl⟩ := ok_lookUp_strict looked
    exact ⟨f, resolved, (Except.ok.inj ok).symm⟩

theorem uses_orderBy {tokens : List String} {chosen : Option Fragment}
    (ok : orderBy r .reject tokens = .ok chosen) :
    ∀ token ∈ tokens, Text.isBlankText token = false →
      ∃ terms, chosen = some terms ∧ Uses r (sortToken token).1 terms := by
  intro token mem notBlank
  obtain ⟨terms, ordered, ok⟩ := Except.ok_bind.mp ok
  obtain ⟨found, sorted, same⟩ := Except.ok_bind.mp ordered
  obtain rfl := Except.ok.inj same
  obtain ⟨x, inside, sorted⟩ := Except.exists_of_mapM sorted mem
  obtain ⟨f, resolved, rfl⟩ := ok_sortTerm_strict notBlank sorted
  obtain ⟨part, chosen, column⟩ := column_mem_clause (fun t : SortTerm => t.field.key)
    SortTerm.fragment (fun _ => List.mem_cons_self) inside (Except.ok.inj ok)
  exact ⟨part, chosen, f, resolved, column⟩

/-! ## Records -/

theorem known_of_checkNames {record : Record} (ok : checkNames r .reject record = .ok ()) :
    ∀ key ∈ record.flatten.keys, ∃ f, r.get? key = some f := by
  unfold checkNames at ok
  dsimp only at ok
  split at ok
  · cases ok
  · rename_i none
    intro key mem
    have found := List.find?_eq_none.mp none key mem
    exact Option.ne_none_iff_exists'.mp (by simpa using found)

theorem ok_insertion {policy : FieldPolicy} {records : List Record} {f : Fragment}
    (ok : (insertion r policy records).outcome = .ok f) :
    (∀ record ∈ records, checkRecord r policy record = .ok ()) ∧
      ∀ record ∈ records, ∃ cells, (row (usedColumns r records) record).outcome = .ok cells := by
  obtain ⟨-, checked, rows, written, -⟩ := ok_insertion_iff.mp ok
  refine ⟨checked, fun record mem => ?_⟩
  obtain ⟨cells, -, composed⟩ := Draft.exists_of_mapM written mem
  exact ⟨cells, composed⟩

theorem known_of_insertion {records : List Record} {f : Fragment}
    (ok : (insertion r .reject records).outcome = .ok f) :
    ∀ record ∈ records, ∀ key ∈ record.flatten.keys, ∃ f, r.get? key = some f := by
  intro record mem
  obtain ⟨⟨⟩, names, -⟩ := Except.ok_bind.mp ((ok_insertion ok).1 record mem)
  exact known_of_checkNames names

/-- An object with members fits no column. -/
theorem plain_of_insertion {policy : FieldPolicy} {records : List Record} {fragment : Fragment}
    (ok : (insertion r policy records).outcome = .ok fragment) {record : Record}
    (mem : record ∈ records) {f : Field} (field : f ∈ r.fields) :
    ∀ v, record.field? f = some v → v.isLeaf = true := by
  intro v found
  cases leaf : v.isLeaf with
  | true => rfl
  | false =>
    obtain ⟨m, ms, rfl⟩ := Json.isLeaf_eq_false_iff.mp leaf
    -- The object would be written into its cell, but it coerces to no column type.
    have filled : cell? record f = some (.obj (m :: ms)) :=
      Option.filter_eq_some_iff.mpr ⟨found, rfl⟩
    have used : f ∈ usedColumns r records :=
      List.mem_filter.mpr ⟨field, List.any_eq_true.mpr ⟨record, mem, by simp [filled]⟩⟩
    obtain ⟨cells, written⟩ := (ok_insertion ok).2 record mem
    obtain ⟨cells, each, -⟩ := Draft.ok_bind.mp written
    obtain ⟨c, -, composed⟩ := Draft.exists_of_mapM each used
    rcases ok_cell composed with ⟨empty, -⟩ | ⟨w, value, same, coerced, -⟩
    · cases filled.symm.trans empty
    · obtain rfl := Option.some.inj (filled.symm.trans same)
      cases coerced

theorem known_of_assignments {record : Record} {f : Fragment}
    (ok : (assignments r .reject record).outcome = .ok f) :
    ∀ leaf ∈ record.flatten, ∃ f, r.get? leaf.1 = some f := by
  intro leaf mem
  obtain ⟨each, assigned, -⟩ := ok_assignments_iff.mp ok
  obtain ⟨fs, -, composed⟩ := Draft.exists_of_mapM assigned mem
  rcases ok_assignment composed with ⟨-, lenient, -⟩ | ⟨f, found, -⟩ | ⟨f, -, found, -⟩
  · cases lenient
  · exact ⟨f, found⟩
  · exact ⟨f, found⟩

end DocTable.Clause
