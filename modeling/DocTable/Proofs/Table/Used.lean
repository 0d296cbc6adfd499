import DocTable.Proofs.Clause.Used
import DocTable.Proofs.Table.Bound

/-!
# What a strict table makes of a request

A strict table names in its statement every column and order that the request names, knows
every path of its filter, and has a column for every leaf of its records (`strict_uses`). What
it may still leave out are names above empty objects in a filter (`hollow_accepted`), and leaves
that an insertion is not looking for.
-/

namespace DocTable
set_option autoImplicit false

/-- Every leaf has a column, and a present one is written into it when it is spelled so. -/
structure Record.UsedBy (r : Registry) (record : Record) : Prop where
  known : ∀ key ∈ record.flatten.keys, ∃ f, r.get? key = some f
  written : Json.isKeyedMembers record.members = true → record.keyedLeaves.keys.Nodup →
    ∀ names v, (names, v) ∈ record.leaves → v.isPresent = true →
      ∀ f, r.get? (Path.columnKey names) = some f →
        (⟨f, v⟩ ∈ Request.ofRecord r record ↔ names ∈ f.spellings)

namespace Table

variable {t : Table}

/-- The columns of a statement, with one for every name. -/
def UsesColumns (t : Table) (names : List String) (f : Fragment) : Prop :=
  ∃ columns, (t.columnList names).outcome = .ok columns ∧ columns <:+: f ∧
    ∀ name ∈ names, Clause.Uses t.registry name columns

/-- The order of a statement, with a term for every token that is not blank. -/
def UsesOrder (t : Table) (tokens : List String) (paged : Bool) (f : Fragment) : Prop :=
  ∃ order, (t.orderClause tokens paged).outcome = .ok order ∧ order <:+: f ∧
    ∀ token ∈ tokens, Text.isBlankText token = false →
      Clause.Uses t.registry (Clause.sortToken token).1 order

/-- Every path of a filter is known, unless it leads to empty objects only. -/
def UsesFilter (t : Table) (filter : Filter) : Prop :=
  ∀ path v, Condition.Reaches (fun _ => True) filter.members none path v →
    t.registry.Knows path ∨ v.isHollow = true

end Table

/-- A request's names are used in the fragment of its statement. -/
def Request.UsedIn (t : Table) (f : Fragment) : Request → Prop
  | .count filter => t.UsesFilter filter
  | .list o =>
    t.UsesColumns o.select f ∧ t.UsesFilter o.filter ∧
      t.UsesOrder o.sort (Clause.window? o.count o.page t.config.defaultCount).isSome f
  | .find _ select => t.UsesColumns select f
  | .insert fresh records =>
    ∀ record ∈ Table.withIds records (Table.idsOf fresh records), record.UsedBy t.registry
  | .update _ record =>
    ∀ leaf ∈ record.flatten, ∃ g, t.registry.get? leaf.1 = some g ∧
      (g.isPrimaryKey = false → ⟨g, leaf.2⟩ ∈ record.flatten.filterMap (ofLeaf t.registry))
  | .selectByIds _ | .delete _ => True

namespace Table

variable {t : Table}

section
variable (strict : t.config.policy = .reject)
include strict

theorem uses_columnList {names : List String} {columns : Fragment}
    (ok : (t.columnList names).outcome = .ok columns) :
    ∀ name ∈ names, Clause.Uses t.registry name columns := by
  intro name mem
  obtain ⟨chosen, selected, rfl⟩ := Draft.ok_map.mp ok
  rw [strict] at selected
  obtain ⟨columns, rfl, uses⟩ := Clause.uses_select selected name mem
  exact uses

theorem uses_orderClause {tokens : List String} {paged : Bool} {order : Fragment}
    (ok : (t.orderClause tokens paged).outcome = .ok order) :
    ∀ token ∈ tokens, Text.isBlankText token = false →
      Clause.Uses t.registry (Clause.sortToken token).1 order := by
  intro token mem notBlank
  obtain ⟨chosen, ordered, rfl⟩ := Draft.ok_map.mp ok
  rw [strict] at ordered
  obtain ⟨terms, rfl, f, resolved, column⟩ := Clause.uses_orderBy ordered token mem notBlank
  exact ⟨f, resolved, List.mem_cons_of_mem _ column⟩

theorem usesFilter {filter : Filter} {condition : Fragment}
    (ok : (t.whereClause filter).outcome = .ok condition) : t.UsesFilter filter := by
  obtain ⟨conditions, composed, -⟩ := Draft.ok_map.mp ok
  rw [strict] at composed
  exact fun path v reached => Condition.knows_of_reaches reached composed

theorem usedBy_insertDraft (formed : t.registry.WellFormed) {records : List Record}
    {f : Fragment} (ok : (t.insertDraft records).outcome = .ok f) :
    ∀ record ∈ records, record.UsedBy t.registry := by
  intro record mem
  obtain ⟨values, composed, -⟩ := Draft.ok_bind.mp ok
  have plain {g : Field} (field : g ∈ t.registry.fields) :=
    Clause.plain_of_insertion composed mem field
  rw [strict] at composed
  refine ⟨Clause.known_of_insertion composed record mem, ?_⟩
  intro keyed distinct names v leaf present g known
  have field := Registry.mem_fields_of_get? known
  have found := Record.field?_eq_some_iff keyed distinct (formed.flattened g field)
    (formed.word g field) leaf (Registry.key_of_get? known).symm
  rw [Request.mem_ofRecord, found]
  exact ⟨fun given => given.2.1.1, fun spelled => ⟨field, ⟨spelled, plain field⟩, present⟩⟩

theorem used_updateDraft {ids : String} {record : Record} {f : Fragment}
    (ok : (t.updateDraft ids record).outcome = .ok f) :
    (Request.update ids record).UsedIn t f := by
  unfold updateDraft at ok
  split at ok
  · cases ok
  obtain ⟨assignments, assigned, -⟩ := Draft.ok_bind.mp ok
  rw [strict] at assigned
  intro leaf mem
  obtain ⟨g, known⟩ := Clause.known_of_assignments assigned leaf mem
  refine ⟨g, known, fun notKey => List.mem_filterMap.mpr ⟨leaf, mem, ?_⟩⟩
  simp [Request.ofLeaf, known, notKey]

theorem usedIn_draftOf (formed : t.registry.WellFormed) {q : Request} {f : Fragment}
    (ok : (t.draftOf q).outcome = .ok f) : q.UsedIn t f := by
  cases q with
  | count filter =>
    obtain ⟨condition, composed, -⟩ := Draft.ok_bind.mp ok
    exact usesFilter strict composed
  | list o =>
    obtain ⟨columns, selected, ok⟩ := Draft.ok_bind.mp ok
    obtain ⟨condition, composed, ok⟩ := Draft.ok_bind.mp ok
    obtain ⟨order, ordered, rfl⟩ := Draft.ok_return.mp ok
    refine ⟨⟨columns, selected, ?_, uses_columnList strict selected⟩, usesFilter strict composed,
      ⟨order, ordered, ?_, uses_orderClause strict ordered⟩⟩
    · exact ⟨[.word "SELECT "], [.word " FROM ", .table t.name] ++ condition ++ order ++
        t.pageClause (Clause.window? o.count o.page t.config.defaultCount), by simp⟩
    · exact ⟨.word "SELECT " :: columns ++ [.word " FROM ", .table t.name] ++ condition, _, rfl⟩
  | find id select =>
    rw [draftOf, findDraft] at ok
    split at ok
    · cases ok
    obtain ⟨columns, selected, ok⟩ := Draft.ok_bind.mp ok
    obtain ⟨value, -, rfl⟩ := Draft.ok_return.mp ok
    exact ⟨columns, selected, ⟨[.word "SELECT "], _, rfl⟩, uses_columnList strict selected⟩
  | insert fresh records => exact usedBy_insertDraft strict formed ok
  | selectByIds ids => trivial
  | update ids record => exact used_updateDraft strict ok
  | delete ids => trivial

end

/-- **Strict tables use what they accept.** The statement of a strict table is a fragment that
carries the values of its request, and the names of the request are used in it. -/
theorem strict_uses {schema : Json} (built : Registry.ofSchema schema = .ok t.registry)
    (strict : t.config.strict = true) {q : Request} {s : Statement} (ok : t.statementOf q = .ok s) :
    ∃ f : Fragment, s = f.statement t.config.style ∧
      f.Carries t.config.backend (q.given t.registry) ∧ q.UsedIn t f := by
  have formed := Registry.wellFormed_ofSchema built
  have rejects : t.config.policy = .reject := by rw [Config.policy, strict, if_pos rfl]
  obtain ⟨f, composed, rfl⟩ := ok_statementOf ok
  exact ⟨f, rfl, carries_draftOf composed, usedIn_draftOf rejects formed composed⟩

/-- A strict table of residents. -/
def residents : Table :=
  ⟨"residents", ⟨[Clause.residentName, Clause.residentFloor]⟩,
    { Config.of .postgres with strict := true }⟩

/-- The names of residents above some floor, the highest first. -/
def upstairs : Request :=
  .list ⟨["name"], ["-address.house.floor"], none, none,
    ⟨[("address", .obj [("house", .obj [("floor", .obj [("$gte", .num (.int 2))])])])]⟩, false⟩

theorem strict_uses_upstairs :
    ∃ f : Fragment, Statement.mk ("SELECT \"name\" FROM \"residents\"" ++
        " WHERE \"address___house___floor\" >= $1" ++
        " ORDER BY \"address___house___floor\" DESC LIMIT 30 OFFSET 0") [.integer 2] =
        f.statement residents.config.style ∧
      f.Carries .postgres (upstairs.given residents.registry) ∧ upstairs.UsedIn residents f :=
  have built : Registry.ofSchema Clause.residents = .ok residents.registry := rfl
  strict_uses built rfl (by decide +kernel)

/-- A name above an empty object is unknown, and accepted. -/
theorem hollow_accepted :
    ¬ ∀ (t : Table) (schema : Json) (filter : Filter) (s : Statement),
      Registry.ofSchema schema = .ok t.registry → t.config.strict = true →
      t.statementOf (.count filter) = .ok s →
      ∀ path v, Condition.Reaches (fun _ => True) filter.members none path v →
        (t.registry.resolve? path).isSome = true ∨
          ∃ f ∈ t.registry.fields, (path ++ ".").toList <+: f.sourcePath.toList := by
  intro all
  have known := all residents Clause.residents ⟨[("street", .obj [])]⟩
    ⟨"SELECT count(*) AS count FROM \"residents\"", []⟩ rfl rfl (by decide +kernel) "street"
    (.obj []) (.here List.mem_cons_self (by decide))
  revert known
  decide +kernel

end Table
end DocTable
