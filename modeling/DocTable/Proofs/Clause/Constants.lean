import DocTable.Proofs.Statement.Finite
import DocTable.Proofs.Table.Insertion

/-!
# The constants of clauses

What a clause writes without binding it is the escape character of patterns, in a condition
(`Condition.constants_fragment`); all other clauses have no constants.
-/

namespace DocTable
set_option autoImplicit false

variable {r : Registry} {policy : FieldPolicy} {f : Fragment}

namespace Condition

/-- The only value that a condition writes for itself. -/
def escapes : List SqlValue := [.text likeEscape]

theorem constants_isIn (column : String) (negated : Bool) (values : List SqlValue) :
    (fragment (.isIn column negated values)).constants = [] := by
  rw [fragment, Fragment.constants_append, Fragment.constants_parenthesized,
    Fragment.constants_commas_map fun _ => rfl]
  rfl

theorem constants_joined (separator : String) {fs : List Fragment}
    (each : fs.flatMap Fragment.constants ⊆ escapes) :
    (Fragment.parenthesized (Fragment.separatedBy separator fs)).constants ⊆ escapes := by
  rw [Fragment.constants_parenthesized, Fragment.constants_separatedBy]
  exact each

mutual
theorem constants_fragment : ∀ c : Condition, c.fragment.constants ⊆ escapes
  | .isNull _ | .isNotNull _ | .compare _ _ _ | .never => List.nil_subset _
  | .isIn column negated values => by
    rw [constants_isIn]
    exact List.nil_subset _
  | .like _ _ => fun _ mem => mem
  | .all parts => constants_joined " AND " (constants_fragments parts)
  | .any parts => constants_joined " OR " (constants_fragments parts)
  | .not parts => constants_joined " AND " (constants_fragments parts)

theorem constants_fragments :
    ∀ cs : List Condition, (fragments cs).flatMap Fragment.constants ⊆ escapes
  | [] => List.nil_subset _
  | c :: cs => List.append_subset.mpr ⟨constants_fragment c, constants_fragments cs⟩
end

theorem constants_conjunction {cs : List Condition} (some : conjunctionFragment cs = .some f) :
    f.constants ⊆ escapes := by
  obtain ⟨-, ⟨⟩⟩ := Option.ite_none_left_eq_some.mp some
  rw [Fragment.constants_separatedBy]
  exact constants_fragments cs

end Condition

namespace Clause

theorem constants_select {names : List String} (ok : select r policy names = .ok (some f)) :
    f.constants = [] := by
  obtain ⟨fields, -, rfl⟩ := commas_of_ok ok
  exact Fragment.constants_commas_map (fun _ => rfl) _

theorem constants_orderBy {tokens : List String} (ok : orderBy r policy tokens = .ok (some f)) :
    f.constants = [] := by
  obtain ⟨terms, -, rfl⟩ := commas_of_ok ok
  exact Fragment.constants_commas_map (fun _ => rfl) _

theorem constants_row {columns : List Field} {record : Record}
    (ok : (row columns record).outcome = .ok f) : f.constants = [] := by
  obtain ⟨cells, composed, rfl⟩ := Draft.ok_return.mp ok
  rw [Fragment.constants_parenthesized]
  refine Fragment.constants_commas (Draft.forall_of_mapM ?_ composed)
  intro field fragment written
  rcases ok_cell written with ⟨-, rfl⟩ | ⟨v, value, -, -, rfl⟩ <;> rfl

theorem constants_insertion {records : List Record}
    (ok : (insertion r policy records).outcome = .ok f) : f.constants = [] := by
  obtain ⟨-, -, rows, written, rfl⟩ := ok_insertion_iff.mp ok
  rw [columnsAndRows, Fragment.constants_append, Fragment.constants_parenthesized,
    Fragment.constants_commas_map fun _ => rfl]
  exact Fragment.constants_commas (Draft.forall_of_mapM constants_row written)

theorem constants_assignments {record : Record}
    (ok : (assignments r policy record).outcome = .ok f) : f.constants = [] := by
  obtain ⟨each, composed, -, rfl⟩ := ok_assignments_iff.mp ok
  refine Fragment.constants_commas ?_
  intro f mem
  obtain ⟨fs, among, mem⟩ := List.mem_flatten.mp mem
  have none : ∀ fs ∈ each, ∀ f ∈ fs, f.constants = [] := by
    refine Draft.forall_of_mapM ?_ composed
    intro leaf fs assigned
    rcases ok_assignment assigned with ⟨-, -, rfl⟩ | ⟨-, -, -, rfl⟩ | ⟨_, _, -, -, -, rfl⟩
    · exact List.forall_mem_nil _
    · exact List.forall_mem_nil _
    · exact List.forall_mem_singleton.mpr rfl
  exact none fs among f mem

theorem constants_idValues {ids : List String} (ok : (idValues ids).outcome = .ok f) :
    f.constants = [] := by
  obtain rfl := ok_idValues ok
  exact Fragment.constants_commas_map (fun _ => rfl) _

end Clause
end DocTable
