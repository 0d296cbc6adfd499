import DocTable.Proofs.Clause.Spelling
import DocTable.Proofs.Clause.Where
import DocTable.Proofs.Condition.Taken
import DocTable.Proofs.Predicate.Assigned

/-!
# The rows that a filter selects

A row is selected when the filter's clause reads as true for it, each placeholder standing for
the value that the session binds there. These are the rows for which everything that the filter
states is true of the given values themselves (`selects_iff`).
-/

namespace DocTable
set_option autoImplicit false

/-- What a given value counts as where it is written. -/
def Given.meant (style : Style) (db : Comparing) (g : Given) : SqlValue := style.meant db g.typed

/-- Everything stated is true for the row. -/
def Predicate.Met (style : Style) (db : Comparing) (row : String → SqlValue)
    (ps : List (Predicate Given)) : Prop :=
  ∀ p ∈ ps, p.eval db row (Given.meant style db) = .yes

namespace Predicate

variable {style : Style} {db : Comparing} {row : String → SqlValue}

theorem eval_all_eq_yes_iff {ps : List (Predicate Given)} :
    (Predicate.all ps).eval db row (Given.meant style db) = .yes ↔ Met style db row ps := by
  rw [eval, evals_eq_map, Truth.all_eq_yes_iff, List.forall_mem_map, Met]

@[simp] theorem met_nil : Met style db row [] := fun _ h => absurd h List.not_mem_nil

@[simp] theorem met_singleton {p : Predicate Given} :
    Met style db row [p] ↔ p.eval db row (Given.meant style db) = .yes := by
  simp [Met]

end Predicate

/-- A database that only tells whether values are the same. -/
def Comparing.sameness : Comparing where
  holds
    | .equal, x, y | .atLeast, x, y | .atMost, x, y => decide (x = y)
    | .notEqual, x, y => decide (x ≠ y)
    | .above, _, _ | .below, _, _ => false
  isLike _ x y := decide (x = y)
  numeral := .text

/-- The one column of a table of names. -/
def nameField : Field := ⟨"name", "name", .text, false, false, false, none⟩

namespace Clause

/-- The value of a placeholder: the one that is bound at its position. -/
def Session.assigned (s : Session) (index : Nat) : SqlValue := s.bound[index - 1]?.getD .null

/-- What a session binds next is what its next placeholders stand for. -/
theorem assigns_session (style : Style) (us vs : List SqlValue) :
    Assigns (Session.mk style (us ++ vs)).assigned us.length vs := by
  induction vs generalizing us with
  | nil => trivial
  | cons v vs ih =>
    refine ⟨by simp [Session.assigned], ?_⟩
    have more := ih (us ++ [v])
    rwa [List.append_assoc, List.length_append] at more

/-- Conditions are composed for the filter. -/
def Accepts (r : Registry) (policy : FieldPolicy) (filter : Filter) : Prop :=
  ∃ cs, (Condition.ofFilter r policy filter).outcome = .ok cs

/-- The filter gets a clause in the session, or none because it asks nothing, and the row
meets it with the values that are then bound. -/
def Selects (s : Session) (r : Registry) (policy : FieldPolicy) (filter : Filter) (db : Comparing)
    (row : String → SqlValue) : Prop :=
  ∃ clause, (addWhere s r policy filter).1 = .ok clause ∧
    ∀ sql, clause = some sql → ∃ q, Sql.Reading s.style.dialect s.bound.length sql q ∧
      q.truth db row (addWhere s r policy filter).2.assigned = .yes

variable {s : Session} {r : Registry} {policy : FieldPolicy} {filter : Filter}

/-- What the session gets for a filter comes of its conditions. -/
theorem ok_addWhere_iff {clause : Option String} :
    (addWhere s r policy filter).1 = .ok clause ↔
      ∃ cs, (Condition.ofFilter r policy filter).outcome = .ok cs ∧
        (Condition.conjunctionFragment cs).map (Fragment.text s.style s.bound.length) =
          clause := by
  rw [addWhere, Session.add, Draft.outcome_map]
  cases (Condition.ofFilter r policy filter).outcome <;> simp [Except.map]

/-- What the session has bound after the clause of a filter: the values of its predicate. -/
theorem addWhere_snd {cs : List Condition}
    (composed : (Condition.ofFilter r policy filter).outcome = .ok cs) :
    (addWhere s r policy filter).2 =
      ⟨s.style, s.bound ++ (stated r filter.members).bound s.style⟩ := by
  have compiled := Condition.compiled_ofMembers composed
  have values : Condition.operands cs = (stated r filter.members).sites.map Prod.snd := by
    rw [Condition.operands, compiled.conditions, Predicate.flatten_sitesEach]
    rfl
  have taken := Condition.takes_ofMembers none filter.members cs composed
  rw [addWhere, Session.add, Draft.taken_map, Session.pushAll_eq, Predicate.bound, ← values,
    ← taken]
  rfl

/-- A filter states something if there are conditions of it. -/
theorem ofFilter_eq_nil_iff {cs : List Condition}
    (composed : (Condition.ofFilter r policy filter).outcome = .ok cs) :
    Predicate.ofFilter r filter = [] ↔ cs = [] := by
  have compiled := Condition.compiled_ofMembers composed
  rw [← List.length_eq_zero_iff, ← List.length_eq_zero_iff, compiled.conditions,
    Predicate.length_conditions, Predicate.length_mapAll, Predicate.ofFilter]

/-- A filter that is accepted gets no clause just when it states nothing. -/
theorem no_clause_iff : whereText s r policy filter = .ok none ↔
    Accepts r policy filter ∧ Predicate.ofFilter r filter = [] := by
  have empty (cs : List Condition) : (Condition.conjunctionFragment cs).map
      (Fragment.text s.style s.bound.length) = none ↔ cs = [] := by
    cases cs <;> simp [Condition.conjunctionFragment]
  refine ok_addWhere_iff.trans ⟨?_, ?_⟩
  · rintro ⟨cs, composed, none⟩
    exact ⟨⟨cs, composed⟩, (ofFilter_eq_nil_iff composed).mpr ((empty cs).mp none)⟩
  · rintro ⟨⟨cs, composed⟩, nothing⟩
    exact ⟨cs, composed, (empty cs).mpr ((ofFilter_eq_nil_iff composed).mp nothing)⟩

variable (b : Backend) {db : Comparing} {row : String → SqlValue}

/-- A clause reads as true for the rows for which all is true that is stated. -/
theorem reads_true_iff (hb : s.style.dialect = b.dialect) {c : Condition} {cs : List Condition}
    (composed : (Condition.ofFilter r policy filter).outcome = .ok (c :: cs)) :
    (∃ q, Sql.Reading s.style.dialect s.bound.length
        ((Fragment.separatedBy " AND " (Condition.fragments (c :: cs))).text s.style
          s.bound.length) q ∧
      q.truth db row (addWhere s r policy filter).2.assigned = .yes) ↔
      Predicate.Met s.style db row (Predicate.ofFilter r filter) := by
  have means := means_conjunction b hb s.bound.length (Condition.compiled_ofMembers composed)
  have assigns := assigns_session s.style s.bound ((stated r filter.members).bound s.style)
  have value : (stated r filter.members).eval db row (s.style.meant db) =
      (Predicate.all (Predicate.ofFilter r filter)).eval db row (Given.meant s.style db) :=
    congrArg Truth.all (Predicate.evals_mapAll _ _ _)
  rw [addWhere_snd composed, ← Predicate.eval_all_eq_yes_iff, ← value,
    ← Predicate.truth_number _ _ assigns]
  constructor
  · rintro ⟨q, reading, yes⟩
    exact (means.2 q reading _ _ _).symm.trans yes
  · intro yes
    obtain ⟨q, reading⟩ := means.1
    exact ⟨q, reading, (means.2 q reading _ _ _).trans yes⟩

/-- **The rows that are selected.** A filter that is accepted selects the rows for which all
is true that it states, whatever the session has bound before and however it writes values. -/
theorem selects_iff (hb : s.style.dialect = b.dialect) :
    Selects s r policy filter db row ↔
      Accepts r policy filter ∧
        Predicate.Met s.style db row (Predicate.ofFilter r filter) := by
  constructor
  · rintro ⟨clause, ok, yes⟩
    obtain ⟨cs, composed, rfl⟩ := ok_addWhere_iff.mp ok
    refine ⟨⟨cs, composed⟩, ?_⟩
    cases cs with
    | nil =>
      rw [(ofFilter_eq_nil_iff composed).mpr rfl]
      exact Predicate.met_nil
    | cons c cs => exact (reads_true_iff b hb composed).mp (yes _ rfl)
  · rintro ⟨⟨cs, composed⟩, met⟩
    refine ⟨_, ok_addWhere_iff.mpr ⟨cs, composed, rfl⟩, ?_⟩
    cases cs with
    | nil => nofun
    | cons c cs =>
      rintro sql ⟨⟩
      exact (reads_true_iff b hb composed).mpr met

/-- Without a clause every row is selected. -/
theorem selects_of_no_clause (hb : s.style.dialect = b.dialect)
    (none : whereText s r policy filter = .ok none) : Selects s r policy filter db row := by
  obtain ⟨accepted, nothing⟩ := no_clause_iff.mp none
  rw [selects_iff b hb, nothing]
  exact ⟨accepted, Predicate.met_nil⟩

end Clause
end DocTable
