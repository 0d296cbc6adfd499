import DocTable.Proofs.Row.InOrder
import DocTable.Proofs.Statement.Outcome

/-!
# Rows that share an id

Rows are put into the order of some ids when every id comes once and has a row at all. Of
several rows with one id only the last one is taken, so that none of the rows is left out
exactly when every id has a single one (`inOrderOf_outcome`).
-/

namespace DocTable.Row
set_option autoImplicit false

/-- The rows with an id. -/
def withId (rows : List Row) (id : String) : List Row :=
  rows.filter fun row => row.idText? == some id

/-- The rows with one of some ids. -/
def withAnyOf (rows : List Row) (ids : List String) : List Row :=
  rows.filter fun row => ids.any fun id => row.idText? == some id

/-- Every id comes once, and is the id of exactly one row. -/
structure MatchesOnce (rows : List Row) (ids : List String) : Prop where
  distinct : ids.Nodup
  single : ∀ id ∈ ids, (withId rows id).length = 1

variable {rows out : List Row} {ids : List String} {id : String}

theorem lastWithId?_eq_getLast? (rows : List Row) (id : String) :
    lastWithId? rows id = (withId rows id).getLast? := by
  rw [withId, List.getLast?_filter, lastWithId?]

theorem one_le_length_withId_iff :
    1 ≤ (withId rows id).length ↔ ∃ row ∈ rows, row.idText? = some id := by
  rw [Nat.one_le_iff_ne_zero, ← Nat.pos_iff_ne_zero, withId, List.length_filter_pos_iff]
  simp

/-! ## The rows of some ids, gathered -/

/-- Gathered id by id, the rows of distinct ids are all the rows with one of them. -/
theorem perm_flatMap_withId (rows : List Row) (distinct : ids.Nodup) :
    (ids.flatMap (withId rows)).Perm (withAnyOf rows ids) := by
  induction ids with
  | nil => simp [withAnyOf]
  | cons id ids ih =>
    obtain ⟨fresh, others⟩ := List.nodup_cons.mp distinct
    let has := fun row : Row => row.idText? == some id
    have here : (withAnyOf rows (id :: ids)).filter has = withId rows id := by
      rw [withAnyOf, List.filter_filter, withId]
      refine List.filter_congr fun row _ => ?_
      rw [List.any_cons]
      show (has row && (has row || _)) = has row
      cases has row <;> rfl
    have elsewhere : (withAnyOf rows (id :: ids)).filter (fun row => !has row) =
        withAnyOf rows ids := by
      rw [withAnyOf, List.filter_filter, withAnyOf]
      refine List.filter_congr fun row _ => ?_
      rw [List.any_cons]
      by_cases text : row.idText? = some id
      · have unlisted : (ids.any fun id => row.idText? == some id) = false := by
          rw [List.any_eq_false, text]
          intro other mem same
          exact fresh (Option.some.inj (beq_iff_eq.mp same) ▸ mem)
        rw [unlisted, Bool.or_false]
        exact Bool.not_and_self _
      · have other : has row = false := beq_false_of_ne text
        show (!has row && (has row || _)) = _
        rw [other]
        rfl
    have parts := List.filter_append_perm has (withAnyOf rows (id :: ids))
    rw [here, elsewhere] at parts
    exact ((ih others).append_left _).trans parts

/-- When every id has a single row, the last rows are all there are. -/
theorem flatMap_withId_eq
    (each : List.Forall₂ (fun id row => (withId rows id).getLast? = some row) ids out)
    (single : ∀ id ∈ ids, (withId rows id).length = 1) : ids.flatMap (withId rows) = out := by
  induction each with
  | nil => rfl
  | cons last _ ih =>
    obtain ⟨first, others⟩ := List.forall_mem_cons.mp single
    obtain ⟨row, only⟩ := List.length_eq_one_iff.mp first
    rw [only] at last
    obtain rfl := Option.some.inj last
    rw [List.flatMap_cons, only, ih others]
    rfl

theorem length_le_length_flatMap {α β : Type} {part : α → List β} {xs : List α}
    (least : ∀ x ∈ xs, 1 ≤ (part x).length) : xs.length ≤ (xs.flatMap part).length := by
  induction xs with
  | nil => exact Nat.le_refl 0
  | cons x xs ih =>
    obtain ⟨first, others⟩ := List.forall_mem_cons.mp least
    have rest := ih others
    rw [List.flatMap_cons, List.length_append, List.length_cons]
    omega

/-- Parts that are not empty have one item each when they have no more items than they are. -/
theorem length_eq_one_of_flatMap {α β : Type} {part : α → List β} {xs : List α}
    (least : ∀ x ∈ xs, 1 ≤ (part x).length) (most : (xs.flatMap part).length ≤ xs.length) :
    ∀ x ∈ xs, (part x).length = 1 := by
  induction xs with
  | nil => exact List.forall_mem_nil _
  | cons x xs ih =>
    obtain ⟨first, others⟩ := List.forall_mem_cons.mp least
    have rest := length_le_length_flatMap others
    rw [List.flatMap_cons, List.length_append, List.length_cons] at most
    exact List.forall_mem_cons.mpr ⟨by omega, ih others (by omega)⟩

/-! ## What comes of rows and ids -/

theorem inOrderOf_eq_ok_iff_getLast? :
    inOrderOf rows ids = .ok out ↔
      ids.Nodup ∧ List.Forall₂ (fun id row => (withId rows id).getLast? = some row) ids out := by
  simp only [inOrderOf_eq_ok_iff, lastWithId?_eq_getLast?]

/-- No row of the ids is left out exactly when every id has a single row. -/
theorem perm_withAnyOf_iff (ok : inOrderOf rows ids = .ok out) :
    out.Perm (withAnyOf rows ids) ↔ ∀ id ∈ ids, (withId rows id).length = 1 := by
  obtain ⟨distinct, each⟩ := inOrderOf_eq_ok_iff_getLast?.mp ok
  have gathered := perm_flatMap_withId rows distinct
  constructor
  · intro all
    have least : ∀ id ∈ ids, 1 ≤ (withId rows id).length := by
      intro id mem
      obtain ⟨row, _, last⟩ := exists_of_forall₂ each mem
      exact List.length_pos_of_mem (List.mem_of_getLast? last)
    refine length_eq_one_of_flatMap least ?_
    calc (ids.flatMap (withId rows)).length
        = (withAnyOf rows ids).length := gathered.length_eq
      _ = out.length := all.length_eq.symm
      _ ≤ ids.length := Nat.le_of_eq each.length_eq.symm
  · intro single
    rwa [flatMap_withId_eq each single] at gathered

theorem reselected_of_error {e : Error} (failed : inOrderOf rows ids = .error e) :
    ∃ found < ids.length, e = .execution (.reselected found ids.length) := by
  rw [inOrderOf_eq] at failed
  split at failed
  · cases failed
  · rename_i fewer
    obtain rfl := Except.error.inj failed
    refine ⟨_, Nat.lt_of_le_of_ne ?_ fewer, rfl⟩
    exact Nat.le_trans (List.length_filterMap_le _ _) (distinctBy_sublist id ids).length_le

/-- **Rows and ids that match.** Rows are put into the order of ids if and only if the ids are
distinct and each of them has a row, and then each gives its last one; in every other case the
count of the rows found is reported as a failure in the database. No row with one of the ids
is left out if and only if, besides, each of them has exactly one. -/
theorem inOrderOf_outcome (rows : List Row) (ids : List String) :
    ((∃ out, inOrderOf rows ids = .ok out) ↔
      ids.Nodup ∧ ∀ id ∈ ids, 1 ≤ (withId rows id).length) ∧
    (∀ out, inOrderOf rows ids = .ok out →
      List.Forall₂ (fun id row => (withId rows id).getLast? = some row) ids out) ∧
    (∀ e, inOrderOf rows ids = .error e →
      ∃ found < ids.length, e = .execution (.reselected found ids.length)) ∧
    ((∃ out, inOrderOf rows ids = .ok out ∧ out.Perm (withAnyOf rows ids)) ↔
      MatchesOnce rows ids) := by
  have succeeds : (∃ out, inOrderOf rows ids = .ok out) ↔
      ids.Nodup ∧ ∀ id ∈ ids, 1 ≤ (withId rows id).length := by
    simp only [exists_inOrderOf_iff, one_le_length_withId_iff]
  refine ⟨succeeds, fun out ok => (inOrderOf_eq_ok_iff_getLast?.mp ok).2,
    fun e => reselected_of_error, ?_⟩
  constructor
  · rintro ⟨out, ok, all⟩
    exact ⟨(inOrderOf_eq_ok_iff_getLast?.mp ok).1, (perm_withAnyOf_iff ok).mp all⟩
  · rintro ⟨distinct, single⟩
    obtain ⟨out, ok⟩ := succeeds.mpr ⟨distinct, fun id mem => Nat.le_of_eq (single id mem).symm⟩
    exact ⟨out, ok, (perm_withAnyOf_iff ok).mpr single⟩

/-- Two rows of one id: the second one is taken for it, and nothing is said of the first. -/
theorem second_row_taken :
    let first : Row := [("_id", .str "a"), ("text", .str "x")]
    let second : Row := [("_id", .str "a"), ("text", .str "y")]
    inOrderOf [first, second] ["a"] = .ok [second] ∧ ¬ MatchesOnce [first, second] ["a"] := by
  intro first second
  refine ⟨by decide +kernel, fun once => ?_⟩
  have single := once.single "a" (List.mem_singleton_self _)
  revert single
  decide +kernel

end DocTable.Row
