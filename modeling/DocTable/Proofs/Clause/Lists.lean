import DocTable.Proofs.Clause.Selected

/-!
# Lists of values

A column is among the values of a list if it equals one of them, and outside of it if it
differs from each. A null in the list is compared as a value, to which nothing is known to be
equal or different: it adds nothing to what `$in` selects, and `$nin` selects nothing with it,
while `$eq` and `$ne` ask of null whether the column is null (`lists_iff`).
-/

namespace DocTable
set_option autoImplicit false

/-- Values are different when they are not equal. -/
def Comparing.Lawful (db : Comparing) : Prop :=
  ∀ x y, db.holds .notEqual x y = !db.holds .equal x y

theorem Comparing.lawful_sameness : Comparing.sameness.Lawful := fun x y => by
  simp [sameness]

/-- No comparison with null is known. -/
theorem Truth.ofValues_null (test : SqlValue → SqlValue → Bool) (x : SqlValue) :
    ofValues test x .null = .unknown := by
  simp [ofValues, SqlValue.isNull]

theorem Comparing.Lawful.ofValues_notEqual {db : Comparing} (lawful : db.Lawful)
    (x y : SqlValue) :
    Truth.ofValues (db.holds .notEqual) x y = (Truth.ofValues (db.holds .equal) x y).not := by
  rw [Truth.ofValues, Truth.ofValues]
  split
  · rfl
  · rw [lawful]
    cases db.holds .equal x y <;> rfl

theorem Given.meant_null (style : Style) (db : Comparing) (f : Field) :
    Given.meant style db ⟨f, .null⟩ = .null := style.meant_null db

/-! ## Acceptance -/

namespace Condition

variable {f : Field}

/-- An operator alone is asked as the value of a column. -/
theorem exists_ofField_operator {op : String} {operand : Json} (operator : isOperator op = true)
    (ok : ∃ cs, (ofOperator f op operand).outcome = .ok cs) :
    ∃ cs, (ofField f (.obj [(op, operand)])).outcome = .ok cs := by
  have alone : isOperatorObject [(op, operand)] = true := by simp [isOperatorObject, operator]
  rw [ofField, if_pos alone]
  · obtain ⟨cs, composed⟩ := ok
    exact ⟨_, Draft.ok_bind.mpr ⟨cs, composed, Draft.ok_return.mpr ⟨[], rfl, rfl⟩⟩⟩
  · exact List.cons_ne_nil _ _

section List

variable {items : List Json} (fit : ∀ x ∈ items, ∃ v, f.coerce x = .ok v)
include fit

/-- Only a scalar is coerced, so that no item is refused as another kind of value. -/
theorem exists_listValues : ∃ values, (listValues f items).outcome = .ok values := by
  induction items with
  | nil => exact ⟨[], rfl⟩
  | cons item items ih =>
    obtain ⟨⟨v, coerced⟩, others⟩ := List.forall_mem_cons.mp fit
    obtain ⟨values, taken⟩ := Draft.exists_ok_return.mpr (ih others)
    cases item with
    | arr _ | obj _ => cases coerced
    | _ => exact ⟨_, Draft.ok_bind.mpr ⟨v, Draft.ok_takeFor.mpr coerced, taken⟩⟩

theorem exists_ofList (negated : Bool) : ∃ c, (ofList f negated items).outcome = .ok c := by
  cases items with
  | nil => exact ⟨.never, rfl⟩
  | cons item items => exact Draft.exists_ok_return.mpr (exists_listValues fit)

theorem exists_list : ∃ cs, (ofField f (.arr items)).outcome = .ok cs :=
  Draft.exists_ok_return.mpr (exists_ofList fit false)

theorem exists_inside : ∃ cs, (ofField f (.obj [("$in", .arr items)])).outcome = .ok cs :=
  exists_ofField_operator rfl (Draft.exists_ok_return.mpr (exists_ofList fit false))

theorem exists_outside : ∃ cs, (ofField f (.obj [("$nin", .arr items)])).outcome = .ok cs := by
  refine exists_ofField_operator rfl ?_
  cases items with
  | nil => exact ⟨[], rfl⟩
  | cons item items => exact Draft.exists_ok_return.mpr (exists_ofList fit true)

end List

/-- Equality is asked of null as well. -/
theorem exists_compared {op : String} {comparison : Comparison}
    (known : comparison? op = some comparison) (operator : isOperator op = true)
    (equality : comparison = .equal ∨ comparison = .notEqual) {v : Json}
    (fit : ∃ value, f.coerce v = .ok value) :
    ∃ cs, (ofField f (.obj [(op, v)])).outcome = .ok cs := by
  obtain ⟨value, coerced⟩ := fit
  refine exists_ofField_operator operator ?_
  unfold ofOperator
  rw [known]
  refine Draft.exists_ok_return.mpr ?_
  cases v with
  | null => rcases equality with rfl | rfl <;> exact ⟨_, rfl⟩
  | arr _ | obj _ => cases coerced
  | _ => exact Draft.exists_ok_return.mpr ⟨value, Draft.ok_takeFor.mpr coerced⟩

end Condition

namespace Clause

/-- The filter that asks one name for something. -/
def asked (name : String) (v : Json) : Filter := ⟨[(name, v)]⟩

variable (b : Backend) {s : Session} {r : Registry} {policy : FieldPolicy} {f : Field}
  {name : String} {db : Comparing} {row : String → SqlValue}

section Column

variable (isName : Condition.isOperator name = false) (found : r.resolve? name = some f)
include isName found

theorem accepts_asked_iff {v : Json} :
    Accepts r policy (asked name v) ↔ ∃ cs, (Condition.ofField f v).outcome = .ok cs := by
  have found : r.resolve? (Path.child none name) = some f := found
  rw [Accepts, Condition.ofFilter, asked, Condition.ofMembers_singleton,
    Condition.ofMember_column isName found]

theorem ofFilter_asked (v : Json) :
    Predicate.ofFilter r (asked name v) = Predicate.ofValue f v := by
  have found : r.resolve? (Path.child none name) = some f := found
  rw [Predicate.ofFilter, asked, Predicate.ofMembers, Predicate.ofMember_name isName, found,
    Predicate.ofMembers, List.append_nil]

/-- What a column is asked that is no refusal selects the rows for which its tests are true. -/
theorem selects_asked_iff (hb : s.style.dialect = b.dialect) {v : Json}
    (accepted : ∃ cs, (Condition.ofField f v).outcome = .ok cs) :
    Selects s r policy (asked name v) db row ↔
      Predicate.Met s.style db row (Predicate.ofValue f v) := by
  rw [selects_iff b hb, ofFilter_asked isName found,
    and_iff_right ((accepts_asked_iff isName found).mpr accepted)]

end Column

section Tests

variable {style : Style} {items : List Json}

/-- The comparison of a column with a value of a list. -/
def among (style : Style) (db : Comparing) (row : String → SqlValue) (f : Field) (x : Json) :
    Truth :=
  .ofValues (db.holds .equal) (row f.key) (Given.meant style db ⟨f, x⟩)

theorem met_inside_iff :
    Predicate.Met style db row [.isIn f.key false (items.map (Given.mk f))] ↔
      ∃ x ∈ items, among style db row f x = .yes := by
  rw [Predicate.met_singleton, Predicate.eval, List.map_map]
  show Truth.any _ = .yes ↔ _
  rw [Truth.any_eq_yes_iff, List.mem_map]
  rfl

theorem met_outside_iff :
    Predicate.Met style db row [.isIn f.key true (items.map (Given.mk f))] ↔
      ∀ x ∈ items, among style db row f x = .no := by
  rw [Predicate.met_singleton, Predicate.eval, List.map_map]
  show (Truth.any _).not = .yes ↔ _
  rw [Truth.not_eq_yes_iff, Truth.any_eq_no_iff, List.forall_mem_map]
  rfl

theorem met_comparison_iff {comparison : Comparison} {x : Json} (some : x ≠ .null) :
    Predicate.Met style db row (Predicate.ofComparison f comparison x) ↔
      Truth.ofValues (db.holds comparison) (row f.key) (Given.meant style db ⟨f, x⟩) = .yes := by
  have test : Predicate.ofComparison f comparison x = [.compare f.key comparison ⟨f, x⟩] := by
    cases x with
    | null => exact absurd rfl some
    | _ => cases comparison <;> rfl
  rw [test, Predicate.met_singleton, Predicate.eval]

theorem among_null : among style db row f .null = .unknown := by
  rw [among, Given.meant_null, Truth.ofValues_null]

end Tests

section Selected

variable (isName : Condition.isOperator name = false) (found : r.resolve? name = some f)
  (hb : s.style.dialect = b.dialect) {items : List Json}
  (fit : ∀ x ∈ items, ∃ v, f.coerce x = .ok v)
include isName found hb fit

theorem selects_list_iff : Selects s r policy (asked name (.arr items)) db row ↔
    ∃ x ∈ items, among s.style db row f x = .yes := by
  rw [selects_asked_iff b isName found hb (Condition.exists_list fit)]
  exact met_inside_iff

theorem selects_inside_iff : Selects s r policy (asked name (.obj [("$in", .arr items)])) db row ↔
    ∃ x ∈ items, among s.style db row f x = .yes := by
  rw [selects_asked_iff b isName found hb (Condition.exists_inside fit)]
  exact met_inside_iff

theorem selects_outside_iff :
    Selects s r policy (asked name (.obj [("$nin", .arr items)])) db row ↔
      ∀ x ∈ items, among s.style db row f x = .no := by
  rw [selects_asked_iff b isName found hb (Condition.exists_outside fit)]
  -- To be outside an empty list states nothing, instead of a test that is always true.
  cases items with
  | nil => exact iff_of_true Predicate.met_nil (List.forall_mem_nil _)
  | cons item items => exact met_outside_iff

omit fit in
theorem selects_compared_iff {op : String} {comparison : Comparison}
    (known : Condition.comparison? op = some comparison)
    (operator : Condition.isOperator op = true)
    (equality : comparison = .equal ∨ comparison = .notEqual) {x : Json} (some : x ≠ .null)
    (fit : ∃ v, f.coerce x = .ok v) :
    Selects s r policy (asked name (.obj [(op, x)])) db row ↔
      Truth.ofValues (db.holds comparison) (row f.key) (Given.meant s.style db ⟨f, x⟩) =
        .yes := by
  have accepted := Condition.exists_compared known operator equality fit
  have stated : Predicate.ofValue f (.obj [(op, x)]) = Predicate.ofComparison f comparison x := by
    rw [Predicate.ofValue, List.flatMap_singleton]
    unfold Predicate.ofOperator
    rw [← Condition.comparison?_eq_lookup, known]
  rw [selects_asked_iff b isName found hb accepted, stated]
  exact met_comparison_iff some

/-- A value of a list counts as `$eq` with it, unless it is null. -/
theorem equals_iff {x : Json} (mem : x ∈ items) :
    x ≠ .null ∧ Selects s r policy (asked name (.obj [("$eq", x)])) db row ↔
      among s.style db row f x = .yes := by
  by_cases null : x = .null
  · rw [null, among_null]
    simp
  · rw [and_iff_right null,
      selects_compared_iff b isName found hb rfl rfl (.inl rfl) null (fit x mem), among]

/-- To be outside, a value of a list counts as `$ne` with it, unless it is null. -/
theorem differs_iff (lawful : db.Lawful) {x : Json} (mem : x ∈ items) :
    x ≠ .null ∧ Selects s r policy (asked name (.obj [("$ne", x)])) db row ↔
      among s.style db row f x = .no := by
  by_cases null : x = .null
  · rw [null, among_null]
    simp
  · rw [and_iff_right null,
      selects_compared_iff b isName found hb rfl rfl (.inr rfl) null (fit x mem),
      lawful.ofValues_notEqual, Truth.not_eq_yes_iff, among]

end Selected

/-- **What lists mean.** For a column and values that all are of its type, the list filters
and the comparisons with each value are accepted. `$in`, or the list alone, selects just the
rows that `$eq` selects with one of the values, null aside. `$nin` selects just the rows that
`$ne` selects with each of them, and none if there is a null among them. -/
theorem lists_iff (b : Backend) (inline : Bool) (bound : List SqlValue) (r : Registry)
    (policy : FieldPolicy) (name : String) (f : Field) (items : List Json) (db : Comparing)
    (row : String → SqlValue) (isName : Condition.isOperator name = false)
    (found : r.resolve? name = some f) (fit : ∀ x ∈ items, ∃ v, f.coerce x = .ok v)
    (lawful : db.Lawful) :
    let selects (v : Json) : Prop :=
      Selects ⟨.of b.dialect inline, bound⟩ r policy (asked name v) db row
    (∀ v ∈ [.arr items, .obj [("$in", .arr items)], .obj [("$nin", .arr items)]],
      Accepts r policy (asked name v)) ∧
    (∀ x ∈ items, ∀ op ∈ ["$eq", "$ne"], Accepts r policy (asked name (.obj [(op, x)]))) ∧
    (selects (.arr items) ↔ ∃ x ∈ items, x ≠ .null ∧ selects (.obj [("$eq", x)])) ∧
    (selects (.obj [("$in", .arr items)]) ↔
      ∃ x ∈ items, x ≠ .null ∧ selects (.obj [("$eq", x)])) ∧
    (selects (.obj [("$nin", .arr items)]) ↔
      .null ∉ items ∧ ∀ x ∈ items, selects (.obj [("$ne", x)])) := by
  intro selects
  have equal : (∃ x ∈ items, x ≠ .null ∧ selects (.obj [("$eq", x)])) ↔
      ∃ x ∈ items, among (.of b.dialect inline) db row f x = .yes :=
    exists_congr fun x => and_congr_right fun mem => equals_iff b isName found rfl fit mem
  have different : (.null ∉ items ∧ ∀ x ∈ items, selects (.obj [("$ne", x)])) ↔
      ∀ x ∈ items, among (.of b.dialect inline) db row f x = .no := by
    rw [← List.forall_mem_ne', ← forall₂_and]
    exact forall₂_congr fun x mem => differs_iff b isName found rfl fit lawful mem
  refine ⟨?_, ?_, ?_, ?_, ?_⟩
  · simp only [List.forall_mem_cons, accepts_asked_iff isName found]
    exact ⟨Condition.exists_list fit, Condition.exists_inside fit,
      Condition.exists_outside fit, List.forall_mem_nil _⟩
  · intro x mem
    simp only [List.forall_mem_cons, accepts_asked_iff isName found]
    exact ⟨Condition.exists_compared rfl rfl (.inl rfl) (fit x mem),
      Condition.exists_compared rfl rfl (.inr rfl) (fit x mem), List.forall_mem_nil _⟩
  · exact (selects_list_iff b isName found rfl fit).trans equal.symm
  · exact (selects_inside_iff b isName found rfl fit).trans equal.symm
  · exact (selects_outside_iff b isName found rfl fit).trans different.symm

/-- The names `a` and `b`, in a row that has the second one. -/
theorem lists_named :
    let selects (v : Json) : Prop := Selects (.start .mysql true) ⟨[nameField]⟩ .reject
      (asked "name" v) .sameness fun _ => .text "b"
    (selects (.obj [("$in", .arr [.str "a", .str "b"])]) ↔
      selects (.obj [("$eq", .str "a")]) ∨ selects (.obj [("$eq", .str "b")])) ∧
    (selects (.obj [("$nin", .arr [.str "a", .str "b"])]) ↔
      selects (.obj [("$ne", .str "a")]) ∧ selects (.obj [("$ne", .str "b")])) := by
  have fit : ∀ x ∈ [Json.str "a", .str "b"], ∃ v, nameField.coerce x = .ok v := by
    simp only [List.forall_mem_cons]
    exact ⟨⟨.text "a", rfl⟩, ⟨.text "b", rfl⟩, List.forall_mem_nil _⟩
  have lists := lists_iff .mysql true [] ⟨[nameField]⟩ .reject "name" nameField
    [.str "a", .str "b"] .sameness (fun _ => .text "b") rfl rfl fit Comparing.lawful_sameness
  have either (P : Json → Prop) :
      (∃ x ∈ [Json.str "a", .str "b"], x ≠ .null ∧ P x) ↔ P (.str "a") ∨ P (.str "b") := by simp
  have each (P : Json → Prop) :
      (.null ∉ [Json.str "a", .str "b"] ∧ ∀ x ∈ [Json.str "a", .str "b"], P x) ↔
        P (.str "a") ∧ P (.str "b") := by simp
  exact ⟨lists.2.2.2.1.trans (either _), lists.2.2.2.2.trans (each _)⟩

/-- A row without a name is selected by `{"$eq": null}` and not by `{"$in": [null]}`; a row
with the name `b` is selected by `{"$ne": "a"}` and by `{"$ne": null}`, and not by
`{"$nin": ["a", null]}`. -/
theorem null_listed :
    let selects (v : Json) (own : SqlValue) : Prop :=
      Selects (.start .postgres false) ⟨[nameField]⟩ .reject (asked "name" v) .sameness fun _ => own
    (selects (.obj [("$eq", .null)]) .null ∧ ¬ selects (.obj [("$in", .arr [.null])]) .null) ∧
    selects (.obj [("$ne", .str "a")]) (.text "b") ∧ selects (.obj [("$ne", .null)]) (.text "b") ∧
      ¬ selects (.obj [("$nin", .arr [.str "a", .null])]) (.text "b") := by
  have isName : Condition.isOperator "name" = false := rfl
  have found : Registry.resolve? ⟨[nameField]⟩ "name" = some nameField := rfl
  have style : (Session.start .postgres false).style.dialect = Backend.postgres.dialect := rfl
  have null : ∀ x ∈ [Json.null], ∃ v, nameField.coerce x = .ok v :=
    List.forall_mem_singleton.mpr ⟨.null, rfl⟩
  have both : ∀ x ∈ [Json.str "a", .null], ∃ v, nameField.coerce x = .ok v :=
    List.forall_mem_cons.mpr ⟨⟨.text "a", rfl⟩, null⟩
  have selected {v : Json} {own : SqlValue}
      (accepted : ∃ cs, (Condition.ofField nameField v).outcome = .ok cs)
      (met : Predicate.Met (.of .postgres false) .sameness (fun _ => own)
        (Predicate.ofValue nameField v)) :
      Selects (.start .postgres false) ⟨[nameField]⟩ .reject (asked "name" v) .sameness
        fun _ => own :=
    (selects_asked_iff .postgres isName found style accepted).mpr met
  refine ⟨⟨selected ⟨_, rfl⟩ (Predicate.met_singleton.mpr rfl), ?_⟩,
    selected ⟨_, rfl⟩ (Predicate.met_singleton.mpr rfl),
    selected ⟨_, rfl⟩ (Predicate.met_singleton.mpr rfl), ?_⟩
  · intro inside
    obtain ⟨x, mem, yes⟩ := (selects_inside_iff .postgres isName found style null).mp inside
    obtain rfl := List.mem_singleton.mp mem
    rw [among_null] at yes
    cases yes
  · intro outside
    have unknown := (selects_outside_iff .postgres isName found style both).mp outside .null
      (List.mem_cons_of_mem _ List.mem_cons_self)
    rw [among_null] at unknown
    cases unknown

end Clause
end DocTable
