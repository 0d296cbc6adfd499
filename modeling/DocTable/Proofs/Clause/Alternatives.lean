import DocTable.Proofs.Clause.Selected

/-!
# Filters that state nothing among others

A filter without a clause selects every row. Within `$or` and `$not` it is left out, as it is
where all is to be met: the alternatives that state something decide alone
(`selects_anyOf_iff`), and the negation states nothing either. So `$not` excludes what its
filter selects, and one more alternative selects no less, just when there is a clause
(`alternatives_iff`).
-/

namespace DocTable.Clause
set_option autoImplicit false

/-- The filter for what another one does not select. -/
def negation (filter : Filter) : Filter := ⟨[("$not", .obj filter.members)]⟩

/-- The filter for what one of several selects. -/
def anyOf (filters : List Filter) : Filter :=
  ⟨[("$or", .arr (filters.map fun f => .obj f.members))]⟩

variable {s : Session} {r : Registry} {policy : FieldPolicy}

/-! ## Acceptance -/

theorem accepts_negation_iff {filter : Filter} :
    Accepts r policy (negation filter) ↔ Accepts r policy filter := by
  simp only [Accepts, Condition.ofFilter, negation, Condition.ofMembers_singleton]
  rw [Condition.ofMember]
  exact Draft.exists_ok_return

/-- The filters of a list are composed if each of them is. -/
theorem exists_ofFilters_iff (op : String) {filters : List Filter} :
    (∃ cs, (Condition.ofFilters r policy op (filters.map fun f => .obj f.members)).outcome =
        .ok cs) ↔ ∀ f ∈ filters, Accepts r policy f := by
  induction filters with
  | nil => exact ⟨fun _ _ h => absurd h List.not_mem_nil, fun _ => ⟨[], rfl⟩⟩
  | cons f filters ih =>
    rw [List.forall_mem_cons, ← ih, List.map_cons, Condition.ofFilters]
    constructor
    · rintro ⟨_, ok⟩
      obtain ⟨parts, first, ok⟩ := Draft.ok_bind.mp ok
      exact ⟨⟨parts, first⟩, Draft.exists_ok_return.mp ⟨_, ok⟩⟩
    · rintro ⟨⟨parts, first⟩, others⟩
      obtain ⟨cs, ok⟩ := Draft.exists_ok_return.mpr others
      exact ⟨cs, Draft.ok_bind.mpr ⟨parts, first, ok⟩⟩

theorem accepts_anyOf_iff {filters : List Filter} :
    Accepts r policy (anyOf filters) ↔ ∀ f ∈ filters, Accepts r policy f := by
  rw [← exists_ofFilters_iff "$or"]
  simp only [Accepts, Condition.ofFilter, anyOf, Condition.ofMembers_singleton]
  rw [Condition.ofMember]
  exact Draft.exists_ok_return

/-! ## What is stated -/

theorem ofFilter_negation (filter : Filter) :
    Predicate.ofFilter r (negation filter) =
      Predicate.node (fun parts => .not (.all parts)) (Predicate.ofFilter r filter) := by
  rw [Predicate.ofFilter, negation, Predicate.ofMembers, Predicate.ofMember, if_pos rfl,
    Predicate.ofMembers, List.append_nil, Predicate.ofFilter]

theorem ofFilters_eq_flatMap (filters : List Filter) :
    Predicate.ofFilters r (filters.map fun f => .obj f.members) =
      filters.flatMap fun f => Predicate.node .all (Predicate.ofFilter r f) := by
  induction filters with
  | nil => rfl
  | cons f filters ih =>
    rw [List.map_cons, Predicate.ofFilters, ih, List.flatMap_cons, Predicate.ofFilter]

theorem ofFilter_anyOf (filters : List Filter) :
    Predicate.ofFilter r (anyOf filters) =
      Predicate.node .any
        (filters.flatMap fun f => Predicate.node .all (Predicate.ofFilter r f)) := by
  rw [Predicate.ofFilter, anyOf, Predicate.ofMembers, Predicate.ofMember, if_neg (by decide),
    if_pos rfl, Predicate.ofMembers, List.append_nil, ofFilters_eq_flatMap]

/-- Alternatives state nothing if none of them does. -/
theorem ofFilter_anyOf_eq_nil_iff {filters : List Filter} :
    Predicate.ofFilter r (anyOf filters) = [] ↔ ∀ f ∈ filters, Predicate.ofFilter r f = [] := by
  simp only [ofFilter_anyOf, Predicate.node_eq_nil_iff, List.flatMap_eq_nil_iff]

/-! ## What is selected -/

section Met

variable {style : Style} {db : Comparing} {row : String → SqlValue}

/-- Alternatives are met if there are none, or one of them is true. -/
theorem met_alternatives_iff {ps : List (Predicate Given)} :
    Predicate.Met style db row (Predicate.node .any ps) ↔
      ps = [] ∨ ∃ p ∈ ps, p.eval db row (Given.meant style db) = .yes := by
  cases ps with
  | nil => simp [Predicate.node]
  | cons p ps =>
    rw [Predicate.node, Predicate.met_singleton, Predicate.eval, Predicate.evals_eq_map,
      Truth.any_eq_yes_iff, List.mem_map]
    · simp
    · exact List.cons_ne_nil p ps

/-- A negation is met if it is of nothing, or what it is of is false. -/
theorem met_negation_iff {ps : List (Predicate Given)} :
    Predicate.Met style db row (Predicate.node (fun parts => .not (.all parts)) ps) ↔
      ps = [] ∨ (Predicate.all ps).eval db row (Given.meant style db) = .no := by
  cases ps with
  | nil => simp [Predicate.node]
  | cons p ps =>
    have value : (Predicate.not (.all (p :: ps))).eval db row (Given.meant style db) =
        ((Predicate.all (p :: ps)).eval db row (Given.meant style db)).not := rfl
    rw [Predicate.node, Predicate.met_singleton, value, Truth.not_eq_yes_iff]
    · simp
    · exact List.cons_ne_nil p ps

end Met

variable (b : Backend) {db : Comparing} {row : String → SqlValue}

/-- Of alternatives, those that state something decide; without one, every row is selected. -/
theorem selects_anyOf_iff (hb : s.style.dialect = b.dialect) {filters : List Filter} :
    Selects s r policy (anyOf filters) db row ↔ (∀ f ∈ filters, Accepts r policy f) ∧
      ((∀ f ∈ filters, Predicate.ofFilter r f = []) ∨
        ∃ f ∈ filters, Predicate.ofFilter r f ≠ [] ∧ Selects s r policy f db row) := by
  rw [selects_iff b hb, accepts_anyOf_iff, ofFilter_anyOf, met_alternatives_iff,
    List.flatMap_eq_nil_iff]
  refine and_congr_right fun accepted => or_congr ?_ ?_
  · simp only [Predicate.node_eq_nil_iff]
  -- A branch of the disjunction is there only for a filter that states something.
  · constructor
    · rintro ⟨p, mem, yes⟩
      obtain ⟨f, listed, inside⟩ := List.mem_flatMap.mp mem
      obtain ⟨some, rfl⟩ := Predicate.mem_node.mp inside
      exact ⟨f, listed, some,
        (selects_iff b hb).mpr ⟨accepted f listed, Predicate.eval_all_eq_yes_iff.mp yes⟩⟩
    · rintro ⟨f, listed, some, selects⟩
      refine ⟨.all (Predicate.ofFilter r f), ?_,
        Predicate.eval_all_eq_yes_iff.mpr ((selects_iff b hb).mp selects).2⟩
      exact List.mem_flatMap.mpr ⟨f, listed, Predicate.mem_node.mpr ⟨some, rfl⟩⟩

/-- What states something excludes its negation; what states nothing and its negation both
select every row. -/
theorem excludes_negation_iff (hb : s.style.dialect = b.dialect) {filter : Filter} :
    (∀ row, ¬ (Selects s r policy filter db row ∧ Selects s r policy (negation filter) db row)) ↔
      whereText s r policy filter ≠ .ok none := by
  constructor
  · intro excludes none
    obtain ⟨accepted, nothing⟩ := no_clause_iff.mp none
    have stillNone : whereText s r policy (negation filter) = .ok Option.none := by
      rw [no_clause_iff, accepts_negation_iff, ofFilter_negation, Predicate.node_eq_nil_iff]
      exact ⟨accepted, nothing⟩
    exact excludes (fun _ => .null)
      ⟨selects_of_no_clause b hb none, selects_of_no_clause b hb stillNone⟩
  · rintro clause row ⟨selects, negated⟩
    obtain ⟨accepted, met⟩ := (selects_iff b hb).mp selects
    have refuted := ((selects_iff b hb).mp negated).2
    rw [ofFilter_negation, met_negation_iff] at refuted
    rcases refuted with nothing | no
    · exact clause (no_clause_iff.mpr ⟨accepted, nothing⟩)
    · rw [Predicate.eval_all_eq_yes_iff.mpr met] at no
      cases no

/-- Beside others that state nothing, one alternative decides alone. -/
theorem selects_alone_iff (hb : s.style.dialect = b.dialect) {filters : List Filter}
    {more : Filter} (accepted : ∀ f ∈ filters ++ [more], Accepts r policy f)
    (silent : ∀ f ∈ filters, Predicate.ofFilter r f = []) :
    Selects s r policy (anyOf (filters ++ [more])) db row ↔ Selects s r policy more db row := by
  have last : more ∈ filters ++ [more] := List.mem_append_right _ List.mem_cons_self
  rw [selects_anyOf_iff b hb]
  constructor
  · rintro ⟨_, nothing | ⟨f, listed, some, selects⟩⟩
    · exact selects_of_no_clause b hb (no_clause_iff.mpr ⟨accepted more last, nothing more last⟩)
    · rcases List.mem_append.mp listed with among | alone
      · exact absurd (silent f among) some
      · obtain rfl := List.mem_singleton.mp alone
        exact selects
  · intro selects
    refine ⟨accepted, ?_⟩
    by_cases nothing : Predicate.ofFilter r more = []
    · exact .inl (List.forall_mem_append.mpr ⟨silent, List.forall_mem_singleton.mpr nothing⟩)
    · exact .inr ⟨more, last, nothing, selects⟩

/-- One more alternative keeps what the others select that state something; of others that
state nothing it keeps what it selects itself. -/
theorem widens_iff (hb : s.style.dialect = b.dialect) {filters : List Filter} {more : Filter}
    (accepted : Accepts r policy (anyOf (filters ++ [more]))) :
    (∀ row, Selects s r policy (anyOf filters) db row →
        Selects s r policy (anyOf (filters ++ [more])) db row) ↔
      whereText s r policy (anyOf filters) ≠ .ok none ∨
        ∀ row, Selects s r policy more db row := by
  have each := accepts_anyOf_iff.mp accepted
  have others : Accepts r policy (anyOf filters) :=
    accepts_anyOf_iff.mpr (List.forall_mem_append.mp each).1
  by_cases silent : ∀ f ∈ filters, Predicate.ofFilter r f = []
  -- The others select every row, but beside `more` nothing is left of them.
  · have none : whereText s r policy (anyOf filters) = .ok none :=
      no_clause_iff.mpr ⟨others, ofFilter_anyOf_eq_nil_iff.mpr silent⟩
    simp [none, selects_alone_iff b hb each silent, selects_of_no_clause b hb none]
  · have clause : whereText s r policy (anyOf filters) ≠ .ok none := fun none =>
      silent (ofFilter_anyOf_eq_nil_iff.mp (no_clause_iff.mp none).2)
    refine iff_of_true ?_ (.inl clause)
    intro row selects
    obtain ⟨_, nothing | ⟨f, listed, some, selected⟩⟩ := (selects_anyOf_iff b hb).mp selects
    · exact absurd nothing silent
    · exact (selects_anyOf_iff b hb).mpr
        ⟨each, .inr ⟨f, List.mem_append_left _ listed, some, selected⟩⟩

/-- **What states nothing among others.** Without a clause a filter selects every row. With
one, and only then, its negation selects no row that it selects. One more alternative selects
no less than the others if they have a clause, and otherwise only if it selects every row. -/
theorem alternatives_iff (b : Backend) (inline : Bool) (bound : List SqlValue) (r : Registry)
    (policy : FieldPolicy) (db : Comparing) (filter : Filter) (filters : List Filter)
    (more : Filter) (accepted : Accepts r policy (anyOf (filters ++ [more]))) :
    let s : Session := ⟨.of b.dialect inline, bound⟩
    (whereText s r policy filter = .ok none → ∀ row, Selects s r policy filter db row) ∧
    ((∀ row, ¬ (Selects s r policy filter db row ∧
        Selects s r policy (negation filter) db row)) ↔
      whereText s r policy filter ≠ .ok none) ∧
    ((∀ row, Selects s r policy (anyOf filters) db row →
        Selects s r policy (anyOf (filters ++ [more])) db row) ↔
      whereText s r policy (anyOf filters) ≠ .ok none ∨
        ∀ row, Selects s r policy more db row) :=
  ⟨fun none _ => selects_of_no_clause b rfl none, excludes_negation_iff b rfl,
    widens_iff b rfl accepted⟩

/-- `{"$or": [{"name": "a"}]}` selects nothing that it does not with `{"name": null}` beside
it. -/
theorem alternatives_named :
    whereText (.start .postgres false) ⟨[nameField]⟩ .reject (anyOf [⟨[("name", .str "a")]⟩]) =
      .ok (some "\"name\" = $1") ∧
    ∀ row, Selects (.start .postgres false) ⟨[nameField]⟩ .reject (anyOf [⟨[("name", .str "a")]⟩])
        .sameness row →
      Selects (.start .postgres false) ⟨[nameField]⟩ .reject
        (anyOf [⟨[("name", .str "a")]⟩, ⟨[("name", .null)]⟩]) .sameness row := by
  have text : whereText (.start .postgres false) ⟨[nameField]⟩ .reject
      (anyOf [⟨[("name", .str "a")]⟩]) = .ok (some "\"name\" = $1") := by decide +kernel
  refine ⟨text, ?_⟩
  refine (alternatives_iff .postgres false [] ⟨[nameField]⟩ .reject .sameness .empty
    [⟨[("name", .str "a")]⟩] ⟨[("name", .null)]⟩ ⟨_, rfl⟩).2.2.mpr (.inl ?_)
  show whereText (.start .postgres false) _ _ _ ≠ _
  rw [text]
  nofun

/-- `{"name": {"$nin": []}}` selects every row, and so does its negation. As the only
alternative it selects every row too, but beside `{"name": null}` it selects only the rows
without a name. -/
theorem vacuous_forgotten :
    Registry.ofSchema (.obj [("required", .arr []),
        ("properties", .obj [("name", .obj [("type", .str "string")])])]) = .ok ⟨[nameField]⟩ ∧
    (let vacuous : Filter := ⟨[("name", .obj [("$nin", .arr [])])]⟩
     let named : String → SqlValue := fun _ => .text "a"
     let selects (filter : Filter) : Prop :=
       Selects (.start .postgres false) ⟨[nameField]⟩ .reject filter .sameness named
     selects vacuous ∧ selects (negation vacuous) ∧ selects (anyOf [vacuous]) ∧
       ¬ selects (anyOf [vacuous, ⟨[("name", .null)]⟩])) := by
  have everyRow {filter : Filter} (none : whereText (.start .postgres false) ⟨[nameField]⟩ .reject
      filter = .ok none) {row : String → SqlValue} :
      Selects (.start .postgres false) ⟨[nameField]⟩ .reject filter .sameness row :=
    selects_of_no_clause .postgres rfl none
  refine ⟨rfl, everyRow rfl, everyRow rfl, everyRow rfl, ?_⟩
  intro selects
  have met := ((selects_iff .postgres rfl).mp selects).2
  have isNull := met (.any [.all [.isNull "name"]]) (List.mem_singleton_self _)
  cases isNull

end DocTable.Clause
