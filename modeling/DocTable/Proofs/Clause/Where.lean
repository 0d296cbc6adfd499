import DocTable.Clause.Session
import DocTable.Proofs.Condition.OfFilter
import DocTable.Proofs.Condition.Reading

/-!
# The meaning of a filter's clause

The clause that is written for a filter reads, by the grammar of conditions, as what the
filter states, for every row and all values of its placeholders (`where_means`).
-/

namespace DocTable
set_option autoImplicit false

/-- The text reads as a predicate in every reading that it has, and it has one. -/
def Sql.Means (style : Style) (before : Nat) (sql : String) (p : Predicate SqlValue) : Prop :=
  (∃ q, Sql.Reading style.dialect before sql q) ∧
    ∀ q, Sql.Reading style.dialect before sql q → q.Equivalent (p.number style before)

namespace Clause

/-- What a filter states, with its values in the types of their columns. -/
def stated (r : Registry) (members : Json.Members) : Predicate SqlValue :=
  .all (Predicate.mapAll Given.typed (Predicate.ofMembers r none members))

/-- The text of a filter's clause in a session; none when the filter asks nothing. -/
def whereText (s : Session) (r : Registry) (policy : FieldPolicy) (filter : Filter) :
    Except Error (Option String) :=
  (s.add (Condition.conjunctionFragment <$> Condition.ofFilter r policy filter)).1

variable {r : Registry} {policy : FieldPolicy} {filter : Filter}

/-- A clause is the text of the conditions that the filter is compiled to. -/
theorem ok_whereText {s : Session} {clause : Option String}
    (ok : whereText s r policy filter = .ok clause) :
    ∃ cs, Compiled (Predicate.ofMembers r none filter.members) cs ∧
      clause = (Condition.conjunctionFragment cs).map (Fragment.text s.style s.bound.length) := by
  rw [whereText, Session.add, Draft.outcome_map] at ok
  cases composed : (Condition.ofFilter r policy filter).outcome with
  | error e =>
    rw [composed] at ok
    cases ok
  | ok cs =>
    rw [composed] at ok
    exact ⟨cs, Condition.compiled_ofMembers composed, (Except.ok.inj ok).symm⟩

/-- Conditions side by side mean what their predicates state together. -/
theorem means_conjunction (b : Backend) {style : Style} (hb : style.dialect = b.dialect)
    (before : Nat) {ps : List (Predicate Given)} {c : Condition} {cs : List Condition}
    (compiled : Compiled ps (c :: cs)) :
    Sql.Means style before
      ((Fragment.separatedBy " AND " (Condition.fragments (c :: cs))).text style before)
      (.all (Predicate.mapAll Given.typed ps)) := by
  have spaced := (Condition.sited_conjunction b (c :: cs)).spaced
  have writable := Predicate.writableAll_mapAll Given.typed ps compiled.writable
  obtain ⟨qs, reads, same⟩ := Predicate.reads_conditions b hb _ before writable
  rw [← compiled.conditions] at reads
  obtain ⟨q, ⟨is, gives, derives⟩, equal⟩ := Predicate.reads_conjunction b hb reads same
  have reading : Sql.Reading style.dialect before
      ((Fragment.separatedBy " AND " (Condition.fragments (c :: cs))).text style before) q := by
    refine ⟨is, ?_, .term derives⟩
    have items := gives []
    rw [List.append_nil] at items
    rw [Fragment.lexemes_text b hb spaced]
    exact items.trans (congrArg some (List.append_nil is))
  refine ⟨⟨q, reading⟩, ?_⟩
  intro p other
  rw [other.unique reading]
  exact equal

/-! ## Filters that are both to be met -/

/-- The filter that asks for two filters. -/
def both (first second : Json.Members) : Filter :=
  ⟨[("$and", .arr [.obj first, .obj second])]⟩

theorem ofMembers_both (first second : Json.Members) :
    Predicate.ofMembers r none (both first second).members =
      Predicate.node .all (Predicate.node .all (Predicate.ofMembers r none first) ++
        Predicate.node .all (Predicate.ofMembers r none second)) := by
  rw [both, Predicate.ofMembers, Predicate.ofMember, if_pos rfl, Predicate.ofMembers,
    Predicate.ofFilters, Predicate.ofFilters, Predicate.ofFilters, List.append_nil,
    List.append_nil]

/-- How many values a filter binds. -/
def countBound (style : Style) (r : Registry) (members : Json.Members) : Nat :=
  ((stated r members).bound style).length

/-- A row that two filters select together is selected by the second one. -/
theorem truth_second {style : Style} {before : Nat} {first second : Json.Members}
    (asks : Predicate.ofMembers r none second ≠ []) {db : Comparing} {row : String → SqlValue}
    {assigned : Nat → SqlValue}
    (selected : ((stated r (both first second).members).number style before).truth db row assigned
      = .yes) :
    ((stated r second).number style (before + countBound style r first)).truth db row assigned
      = .yes := by
  unfold countBound
  unfold stated at selected ⊢
  rw [ofMembers_both] at selected
  obtain ⟨q, qs, ofSecond⟩ := List.exists_cons_of_ne_nil asks
  rw [ofSecond] at selected ⊢
  cases ofFirst : Predicate.ofMembers r none first with
  | nil =>
    rw [ofFirst] at selected
    have alone : (Predicate.all [.all [(Predicate.all (Predicate.mapAll Given.typed
        (q :: qs))).number style before]]).truth db row assigned = .yes := selected
    rw [Predicate.truth_all_singleton, Predicate.truth_all_singleton] at alone
    exact alone
  | cons p ps =>
    rw [ofFirst] at selected
    have parts : (Predicate.all [.all [_, (Predicate.all (Predicate.mapAll Given.typed
        (q :: qs))).number style (before + ((Predicate.all (Predicate.mapAll Given.typed
          (p :: ps))).bound style).length)]]).truth db row assigned = .yes := selected
    rw [Predicate.truth_all_singleton, Predicate.truth_all] at parts
    exact Truth.all_eq_yes_iff.mp parts _ (List.mem_map_of_mem (List.mem_cons_of_mem _
      List.mem_cons_self))

/-- **What a clause means.** A filter gets no clause only if it states nothing; a clause
means what the filter states; and what two filters select together, each selects that
states anything. -/
theorem where_means (b : Backend) (inline : Bool) (bound : List SqlValue) (r : Registry)
    (policy : FieldPolicy) (filter : Filter) (clause : Option String)
    (ok : whereText ⟨Style.of b.dialect inline, bound⟩ r policy filter = .ok clause) :
    (clause = none → Predicate.ofFilter r filter = []) ∧
    (∀ sql, clause = some sql →
      Sql.Means (Style.of b.dialect inline) bound.length sql (stated r filter.members)) ∧
    (∀ first second, filter = both first second → Predicate.ofMembers r none second ≠ [] →
      ∃ sql, clause = some sql ∧ ∀ q, Sql.Reading b.dialect bound.length sql q →
        ∀ db row assigned, q.truth db row assigned = .yes →
          ((stated r second).number (Style.of b.dialect inline)
            (bound.length + countBound (Style.of b.dialect inline) r first)).truth
              db row assigned = .yes) := by
  obtain ⟨cs, compiled, rfl⟩ := ok_whereText ok
  have style : (Style.of b.dialect inline).dialect = b.dialect := rfl
  have nothing (none : cs = []) : Predicate.ofMembers r Option.none filter.members = [] := by
    have length := congrArg List.length (none.symm.trans compiled.conditions)
    rw [Predicate.length_conditions, Predicate.length_mapAll] at length
    exact List.length_eq_zero_iff.mp length.symm
  cases cs with
  | nil =>
    refine ⟨fun _ => nothing rfl, nofun, ?_⟩
    rintro first second rfl asks
    have none := nothing rfl
    obtain ⟨q, qs, ofSecond⟩ := List.exists_cons_of_ne_nil asks
    rw [ofMembers_both, ofSecond] at none
    cases ofFirst : Predicate.ofMembers r Option.none first <;> rw [ofFirst] at none <;> cases none
  | cons c cs =>
    have means := means_conjunction b style bound.length compiled
    refine ⟨nofun, ?_, ?_⟩
    · rintro sql ⟨⟩
      exact means
    · rintro first second rfl asks
      refine ⟨_, rfl, ?_⟩
      intro q reading db row assigned selected
      have equal := means.2 q reading db row assigned
      rw [selected] at equal
      exact truth_second asks equal.symm

theorem where_means_grouped :
    Sql.Means (.of .mysql false) 0 "(`name` LIKE ? ESCAPE '\\\\' OR NOT (`_id` IN (?, NULL)))"
      (.all [.any [.all [.like "name" (.text "A%") "\\"],
        .all [.not (.all [.isIn "_id" false [.text "7", .null]])]]]) := by
  refine (where_means .mysql false []
    ⟨[⟨"name", "name", .text, false, false, false, none⟩]⟩ .ignore
    ⟨[("$or", .arr [.obj [("name", .obj [("$like", .str "A%")])],
      .obj [("$not", .obj [("_id", .arr [.str "7", .null]), ("age", .bool true)])]])]⟩ _
    ?_).2.1 _ rfl
  decide +kernel

end Clause
end DocTable
