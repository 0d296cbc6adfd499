import DocTable.Proofs.Clause.Payload
import DocTable.Proofs.Clause.Taken
import DocTable.Proofs.Predicate.Masked
import DocTable.Proofs.Registry.Flattening
import DocTable.Proofs.Statement.InTurn
import DocTable.Proofs.Table.Clauses

/-!
# The assignments of a partial record

A partial record assigns the columns among the keys that it flattens to, the table's key apart,
each once and with the leaf's value in the column's type (`Assigns`). The assignments are written
in the order of the leaves, and there is nothing to assign just when no leaf is for a column
beside the key (`assignments_exact`).
-/

namespace DocTable.Clause
set_option autoImplicit false

/-- The key of a column that can be assigned. -/
def IsTarget (r : Registry) (key : String) : Prop :=
  key ∈ r.keys ∧ key ≠ Field.primaryKeyName

instance (r : Registry) (key : String) : Decidable (IsTarget r key) :=
  inferInstanceAs (Decidable (_ ∧ _))

/-- The leaves of a record that are for columns beside the key. -/
def targets (r : Registry) (record : Record) : List (String × Json) :=
  record.flatten.filter fun leaf => IsTarget r leaf.1

/-- A leaf sets a column to a value. -/
structure Sets (r : Registry) (leaf : String × Json) (set : String × SqlValue) : Prop where
  column : set.1 = leaf.1
  coerced : ∃ f ∈ r.fields, f.key = leaf.1 ∧ f.coerce leaf.2 = .ok set.2
  null : set.2 = .null ↔ leaf.2 = .null

/-- The assignments that a record stands for. -/
structure Assigns (r : Registry) (record : Record) (sets : List (String × SqlValue)) : Prop where
  /-- One assignment for each leaf, in the order of the leaves. -/
  each : List.Forall₂ (Sets r) (targets r record) sets
  notKey : Field.primaryKeyName ∉ sets.map Prod.fst
  distinct : (sets.map Prod.fst).Nodup

/-! ## The text of assignments -/

section Text

variable (style : Style)

/-- The value that an assignment binds. -/
def boundBySet (set : String × SqlValue) : List SqlValue := [set.2].filter style.binds

def setText (before : Nat) (set : String × SqlValue) : String :=
  style.dialect.quoteName set.1 ++ " = " ++ style.operandText before set.2

def setsText (before : Nat) (sets : List (String × SqlValue)) : String :=
  ", ".intercalate (inTurn (boundBySet style) (setText style) before sets)

end Text

def setFragment (set : String × SqlValue) : Fragment :=
  [.column set.1, .word " = ", .operand set.2]

theorem text_setFragment (style : Style) (before : Nat) (set : String × SqlValue) :
    (setFragment set).text style before = setText style before set := by
  show style.dialect.quoteName set.1 ++
    (" = " ++ ((Piece.operand set.2).text style before ++ "")) = _
  rw [Piece.text_operand, String.append_empty, setText, String.append_assoc]

theorem bound_setFragment (style : Style) (set : String × SqlValue) :
    (setFragment set).bound style = boundBySet style set :=
  Fragment.bound_eq_filter style (setFragment set)

theorem text_setFragments (style : Style) (before : Nat) (sets : List (String × SqlValue)) :
    (Fragment.commas (sets.map setFragment)).text style before = setsText style before sets :=
  Fragment.text_separatedBy (bound_setFragment style) (text_setFragment style) ", " before sets

theorem operands_setFragments (sets : List (String × SqlValue)) :
    (Fragment.commas (sets.map setFragment)).operands = sets.map Prod.snd := by
  rw [Fragment.operands_commas, List.flatMap_map, List.map_eq_flatMap]
  rfl

/-! ## What leaves set -/

section Leaves

variable {schema : Json} {r : Registry} {policy : FieldPolicy} {leaf : String × Json}
  {fs : List Fragment} (built : Registry.ofSchema schema = .ok r)
include built

theorem isTarget_iff {key : String} :
    IsTarget r key ↔ ∃ f, r.get? key = some f ∧ f.isPrimaryKey = false := by
  constructor
  · rintro ⟨known, notKey⟩
    obtain ⟨f, mem, rfl⟩ := List.mem_map.mp known
    refine ⟨f, (Registry.wellFormed_ofSchema built).get?_key mem, ?_⟩
    rw [← Bool.not_eq_true, Registry.isPrimaryKey_iff built mem]
    exact notKey
  · rintro ⟨f, found, notKey⟩
    have mem := Registry.mem_fields_of_get? found
    obtain rfl := Registry.key_of_get? found
    rw [← Bool.not_eq_true, Registry.isPrimaryKey_iff built mem] at notKey
    exact ⟨List.mem_map_of_mem mem, notKey⟩

theorem sets_iff {f : Field} (found : r.get? leaf.1 = some f) {set : String × SqlValue} :
    Sets r leaf set ↔ ∃ x, f.coerce leaf.2 = .ok x ∧ set = (f.key, x) := by
  have key := Registry.key_of_get? found
  constructor
  · rintro ⟨column, ⟨g, mem, same, coerced⟩, -⟩
    have other := (Registry.wellFormed_ofSchema built).get?_eq_some_iff.mpr ⟨mem, same⟩
    obtain rfl := Option.some.inj (found.symm.trans other)
    exact ⟨set.2, coerced, Prod.ext (column.trans key.symm) rfl⟩
  · rintro ⟨x, coerced, rfl⟩
    refine ⟨key, ⟨f, Registry.mem_fields_of_get? found, key, coerced⟩, ?_⟩
    rw [← SqlValue.isNull_iff, Field.isNull_of_coerce coerced]
    cases leaf.2 <;> simp [Json.isNull]

/-- A leaf for a column beside the key sets it. -/
theorem ok_target_iff (target : IsTarget r leaf.1) :
    (assignment r policy leaf.1 leaf.2).outcome = .ok fs ↔
      ∃ set, Sets r leaf set ∧ fs = [setFragment set] := by
  obtain ⟨f, found, notKey⟩ := (isTarget_iff built).mp target
  rw [assignment, found]
  simp only [notKey, Bool.false_eq_true, if_false, Draft.ok_return, Draft.ok_takeFor,
    sets_iff built found]
  constructor
  · rintro ⟨x, coerced, rfl⟩
    exact ⟨_, ⟨x, coerced, rfl⟩, rfl⟩
  · rintro ⟨_, ⟨x, coerced, rfl⟩, rfl⟩
    exact ⟨x, coerced, rfl⟩

/-- Without a strict policy, other leaves set nothing. -/
theorem assignment_of_not_isTarget (other : ¬ IsTarget r leaf.1) :
    assignment r .ignore leaf.1 leaf.2 = pure [] := by
  rw [assignment]
  cases found : r.get? leaf.1 with
  | none => rfl
  | some f =>
    have key : f.isPrimaryKey = true := by
      rw [← Bool.not_eq_false]
      exact fun notKey => other ((isTarget_iff built).mpr ⟨f, found, notKey⟩)
    exact if_pos key

/-- The leaves for columns beside the key set them, the others nothing. -/
theorem exists_sets {leaves : List (String × Json)} {each : List (List Fragment)}
    (composed : (leaves.mapM fun m => assignment r policy m.1 m.2).outcome = .ok each) :
    ∃ sets, List.Forall₂ (Sets r) (leaves.filter fun leaf => IsTarget r leaf.1) sets ∧
      each.flatten = sets.map setFragment := by
  have all := Draft.ok_mapM.mp composed
  clear composed
  induction all with
  | nil => exact ⟨[], .nil, rfl⟩
  | @cons leaf fs leaves rest first _ ih =>
    obtain ⟨sets, others, later⟩ := ih
    rw [List.flatten_cons, later]
    by_cases target : IsTarget r leaf.1
    · obtain ⟨set, here, rfl⟩ := (ok_target_iff built target).mp first
      rw [List.filter_cons_of_pos (by simpa using target)]
      exact ⟨set :: sets, .cons here others, rfl⟩
    · rw [List.filter_cons_of_neg (by simpa using target)]
      rcases ok_assignment first with ⟨-, -, rfl⟩ | ⟨-, -, -, rfl⟩ | ⟨f, -, found, notKey, -⟩
      · exact ⟨sets, others, rfl⟩
      · exact ⟨sets, others, rfl⟩
      · exact absurd ((isTarget_iff built).mpr ⟨f, found, notKey⟩) target

/-- Without a strict policy, only a value that does not fit its column is refused. -/
theorem exists_ok_leaves_iff {leaves : List (String × Json)} :
    (∃ each, (leaves.mapM fun m => assignment r .ignore m.1 m.2).outcome = .ok each) ↔
      ∀ leaf ∈ leaves.filter fun leaf => IsTarget r leaf.1, ∃ set, Sets r leaf set := by
  simp only [Draft.ok_mapM, exists_forall₂_iff, List.mem_filter, decide_eq_true_eq, and_imp]
  refine forall₂_congr fun leaf _ => ?_
  by_cases target : IsTarget r leaf.1
  · simp only [ok_target_iff built target, target, true_imp_iff]
    constructor
    · rintro ⟨_, set, here, -⟩
      exact ⟨set, here⟩
    · rintro ⟨set, here⟩
      exact ⟨_, set, here, rfl⟩
  · rw [assignment_of_not_isTarget built target]
    exact iff_of_true ⟨[], rfl⟩ fun h => absurd h target

/-- Without a strict policy, a leaf fails for a value that does not fit. -/
theorem error_assignment {e : Error}
    (error : (assignment r .ignore leaf.1 leaf.2).outcome = .error e) :
    ∃ cause, e = .validation cause := by
  by_cases target : IsTarget r leaf.1
  · obtain ⟨f, found, notKey⟩ := (isTarget_iff built).mp target
    rw [assignment, found] at error
    simp only [notKey, Bool.false_eq_true, if_false, Draft.error_return] at error
    obtain ⟨cause, rfl⟩ := Draft.error_takeFor error
    exact ⟨_, rfl⟩
  · rw [assignment_of_not_isTarget built target] at error
    cases error

end Leaves

/-! ## Assignment lists -/

section Record

variable {schema : Json} {r : Registry} {policy : FieldPolicy} {record : Record}
  {sets : List (String × SqlValue)}

/-- The sets of the targets are of different columns, none of them the key. -/
theorem assigns_of_forall₂ (each : List.Forall₂ (Sets r) (targets r record) sets) :
    Assigns r record sets := by
  have keys : sets.map Prod.fst = (targets r record).map Prod.fst := by
    rw [← List.forall₂_eq_eq_eq, List.forall₂_map_left_iff, List.forall₂_map_right_iff]
    exact (each.imp fun _ _ set => set.column).flip
  refine ⟨each, fun assigned => ?_, ?_⟩
  · rw [keys] at assigned
    obtain ⟨leaf, mem, key⟩ := List.mem_map.mp assigned
    exact (of_decide_eq_true (List.mem_filter.mp mem).2 : IsTarget r leaf.1).2 key
  · rw [keys]
    exact record.nodup_keys_flatten.sublist (List.filter_sublist.map Prod.fst)

variable (built : Registry.ofSchema schema = .ok r)
include built

/-- When every leaf is accepted, the list fails for want of targets only. -/
theorem outcome_assignments {each : List (List Fragment)}
    (composed : (record.flatten.mapM fun m => assignment r policy m.1 m.2).outcome = .ok each) :
    (assignments r policy record).outcome =
      if targets r record = [] then .error .noMatchingFields
      else .ok (Fragment.commas each.flatten) := by
  obtain ⟨sets, all, same⟩ := exists_sets built composed
  have none : each.flatten.isEmpty = true ↔ targets r record = [] := by
    rw [same, List.isEmpty_iff, List.map_eq_nil_iff, ← List.length_eq_zero_iff, ← all.length_eq,
      List.length_eq_zero_iff]
    rfl
  rw [assignments, Draft.outcome_bind, composed]
  simp only [Except.bind, none]
  split <;> rfl

theorem exists_assigns {fragment : Fragment}
    (ok : (assignments r policy record).outcome = .ok fragment) :
    ∃ sets, Assigns r record sets ∧ fragment = Fragment.commas (sets.map setFragment) := by
  obtain ⟨each, composed, -, rfl⟩ := ok_assignments_iff.mp ok
  obtain ⟨sets, all, same⟩ := exists_sets built composed
  exact ⟨sets, assigns_of_forall₂ all, congrArg Fragment.commas same⟩

theorem exists_ok_assignments_iff :
    (∃ fragment, (assignments r .ignore record).outcome = .ok fragment) ↔
      targets r record ≠ [] ∧ ∀ leaf ∈ targets r record, ∃ set, Sets r leaf set := by
  constructor
  · rintro ⟨fragment, ok⟩
    obtain ⟨each, composed, -⟩ := ok_assignments_iff.mp ok
    refine ⟨fun none => ?_, (exists_ok_leaves_iff built).mp ⟨each, composed⟩⟩
    rw [outcome_assignments built composed, if_pos none] at ok
    cases ok
  · rintro ⟨some, fit⟩
    obtain ⟨each, composed⟩ := (exists_ok_leaves_iff built).mpr fit
    exact ⟨_, (outcome_assignments built composed).trans (if_neg some)⟩

theorem assignments_noMatchingFields_iff :
    (assignments r .ignore record).outcome = .error .noMatchingFields ↔ targets r record = [] := by
  constructor
  · intro error
    rcases Draft.error_bind.mp error with refused | ⟨each, composed, -⟩
    · obtain ⟨leaf, -, refused⟩ := Draft.exists_error_of_mapM refused
      obtain ⟨cause, same⟩ := error_assignment built refused
      cases same
    · by_contra some
      rw [outcome_assignments built composed, if_neg some] at error
      cases error
  · intro none
    have fit : ∀ leaf ∈ targets r record, ∃ set, Sets r leaf set := by
      rw [none]
      exact List.forall_mem_nil _
    obtain ⟨each, composed⟩ := (exists_ok_leaves_iff built).mpr fit
    exact (outcome_assignments built composed).trans (if_pos none)

/-- **An update assigns the known columns beside the key.** What a partial record adds to its
session is one assignment for each of its leaves that is for such a column, in their order, with
the values bound in that order; no column is assigned twice, and the key never is. Without a
strict policy a record is accepted when it has such leaves and their values fit; it is refused
for want of fields when none of its keys is a column's beside the key. -/
theorem assignments_exact (s : Session) (policy : FieldPolicy) (record : Record) :
    (∀ sql after, s.add (some <$> assignments r policy record) = (.ok (some sql), after) →
      ∃ sets, Assigns r record sets ∧ sql = setsText s.style s.bound.length sets ∧
        after = ⟨s.style, s.bound ++ (sets.map Prod.snd).filter s.style.binds⟩) ∧
    ((∃ sql after, s.add (some <$> assignments r .ignore record) = (.ok (some sql), after)) ↔
      targets r record ≠ [] ∧ ∀ leaf ∈ targets r record, ∃ set, Sets r leaf set) ∧
    ((s.add (some <$> assignments r .ignore record)).1 = .error .noMatchingFields ↔
      ¬ ∃ key ∈ record.flatten.keys, IsTarget r key) := by
  have takes (policy : FieldPolicy) : (assignments r policy record).Takes Fragment.operands :=
    takes_assignments record
  refine ⟨fun sql after added => ?_, ?_, ?_⟩
  · obtain ⟨_, ok, rfl, rfl⟩ := (Session.add_some_iff (takes policy)).mp added
    obtain ⟨sets, assigns, rfl⟩ := exists_assigns built ok
    refine ⟨sets, assigns, text_setFragments _ _ _, ?_⟩
    rw [Fragment.bound_eq_filter, operands_setFragments]
  · rw [Session.exists_add_some_iff (takes .ignore), exists_ok_assignments_iff built]
  · rw [Session.add_some_error_iff, assignments_noMatchingFields_iff built, targets,
      List.filter_eq_nil_iff]
    simp [Json.Members.keys]

end Record

/-- Two spellings of one column, null for another, a padded key and an unknown name. -/
theorem assignments_exact_residents :
    Registry.ofSchema residents = .ok ⟨[residentName, residentFloor]⟩ ∧
    ∃ sets,
      Assigns ⟨[residentName, residentFloor]⟩
        ⟨[("address", .obj [(" house.floor ", .num (.int 3))]), (" _id ", .str "7"),
          ("name", .null), ("address.house", .obj [("floor", .num (.int 4))]),
          ("pet", .bool true)]⟩ sets ∧
      "\"address___house___floor\" = $2, \"name\" = NULL" =
        setsText ⟨.postgres, false⟩ 1 sets ∧
      (⟨⟨.postgres, false⟩, [.text "kept", .integer 4]⟩ : Session) =
        ⟨⟨.postgres, false⟩,
          .text "kept" :: (sets.map Prod.snd).filter (Style.binds ⟨.postgres, false⟩)⟩ := by
  have built : Registry.ofSchema residents = .ok ⟨[residentName, residentFloor]⟩ := rfl
  exact ⟨built, (assignments_exact built ⟨⟨.postgres, false⟩, [.text "kept"]⟩ .ignore _).1 _ _
    (by decide +kernel)⟩

end DocTable.Clause
