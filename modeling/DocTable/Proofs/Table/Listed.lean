import DocTable.Proofs.Clause.Resolved
import DocTable.Proofs.Table.Pages
import DocTable.Proofs.Table.Targets

/-!
# Columns and orders of a table's lists

A list has the columns that its names stand for and the order that its tokens stand for, of each
column the first (`Table.first_occurrences_listed`). Without any it has all columns, and the order
of the configuration; one without that is ordered only where a page needs it.
-/

namespace DocTable.Table
set_option autoImplicit false

variable {t : Table} {o : ListOptions}

theorem policy_of_ignores (ignores : t.config.strict = false) : t.config.policy = .ignore := by
  rw [Config.policy, ignores]
  rfl

/-! ## Columns -/

/-- The columns of a query in its text; all when none are given. -/
def columnsText (t : Table) (fields : List Field) : String :=
  if fields = [] then "*"
  else ", ".intercalate (fields.map fun f => t.config.dialect.quoteName f.key)

/-- The columns of a query. -/
def columnsFragment (fields : List Field) : Fragment :=
  if fields.isEmpty then [.word "*"]
  else Fragment.commas (fields.map fun f => [.column f.key])

theorem fixed_columnsFragment (t : Table) (fields : List Field) :
    (columnsFragment fields).Fixed t.config.style (t.columnsText fields) := by
  rw [columnsFragment, columnsText]
  cases fields with
  | nil => exact .word "*"
  | cons f fields => exact .commas (fun f => .column f.key) (f :: fields)

theorem columnList_gives (t : Table) (names : List String) :
    t.config.policy.Gives (t.columnList names).outcome
      (columnsFragment (Clause.columnsOf t.registry names)) := by
  have chosen (fields : List Field) : columnsFragment fields = Option.getD (if fields.isEmpty then
      none else some (Fragment.commas (fields.map fun f => [.column f.key]))) [.word "*"] := by
    cases fields <;> rfl
  rw [columnList, Draft.outcome_map, chosen]
  exact (Clause.select_gives names).map _

/-! ## Orders -/

/-- The terms of an order in its text. -/
def termsText (t : Table) (terms : List Clause.SortTerm) : String :=
  ", ".intercalate (terms.map fun term =>
    t.config.dialect.quoteName term.field.key ++ " " ++ term.direction.word)

/-- The order of a list with some terms and a page clause, if there is one: that of the terms, or
else the configured one, or else what only SQL Server asks for, and there only for a page. -/
structure OrderedBy (t : Table) (page : Option String) (terms : List Clause.SortTerm)
    (order : String) : Prop where
  asked : terms ≠ [] → order = " ORDER BY " ++ t.termsText terms
  key : terms = [] → t.config.defaultSort = .primaryKeyAscending →
    order = " ORDER BY " ++ t.config.dialect.quoteName Field.primaryKeyName ++ " ASC"
  neutral : terms = [] → t.config.defaultSort = .unspecified →
    (order = " ORDER BY (SELECT NULL)" ↔ t.config.backend = .mssql ∧ page ≠ none)
  unordered : terms = [] → t.config.defaultSort = .unspecified →
    (order = "" ↔ ¬ (t.config.backend = .mssql ∧ page ≠ none))

/-- The order clause of some terms. -/
def orderFragment (t : Table) (paged : Bool) (terms : List Clause.SortTerm) : Fragment :=
  match (if terms.isEmpty then none
      else some (Fragment.commas (terms.map Clause.SortTerm.fragment))) <|> t.fallbackOrder paged with
  | some f => .word " ORDER BY " :: f
  | none => []

theorem orderClause_gives (t : Table) (tokens : List String) (paged : Bool) :
    t.config.policy.Gives (t.orderClause tokens paged).outcome
      (t.orderFragment paged (Clause.termsOf t.registry tokens)) := by
  rw [orderClause, Draft.outcome_map]
  exact (Clause.orderBy_gives tokens).map _

theorem fixed_sortTerm (t : Table) (term : Clause.SortTerm) :
    term.fragment.Fixed t.config.style
      (t.config.dialect.quoteName term.field.key ++ " " ++ term.direction.word) := by
  rw [String.append_assoc]
  exact (Fragment.Fixed.column term.field.key).append (.word (" " ++ term.direction.word))

theorem fallbackOrder_of_unspecified (sort : t.config.defaultSort = .unspecified)
    (page : Option String) :
    t.fallbackOrder page.isSome = if t.config.backend = .mssql ∧ page ≠ none
      then some [.word "(SELECT NULL)"] else none := by
  rw [fallbackOrder, sort, Config.dialect]
  cases t.config.backend <;> cases page <;> rfl

theorem exists_orderedBy (t : Table) (page : Option String) (terms : List Clause.SortTerm) :
    ∃ order, (t.orderFragment page.isSome terms).Fixed t.config.style order ∧
      t.OrderedBy page terms order := by
  have ordered {f : Fragment} {s : String} (fixed : f.Fixed t.config.style s) :
      Fragment.Fixed t.config.style (.word " ORDER BY " :: f) (" ORDER BY " ++ s) :=
    (Fragment.Fixed.word " ORDER BY ").append fixed
  cases terms with
  | cons term terms =>
    exact ⟨_, ordered (.commas t.fixed_sortTerm (term :: terms)), fun _ => rfl, nofun, nofun, nofun⟩
  | nil =>
    have fallback : t.orderFragment page.isSome [] = match t.fallbackOrder page.isSome with
      | some f => .word " ORDER BY " :: f
      | none => [] := rfl
    rw [fallback]
    cases sort : t.config.defaultSort with
    | primaryKeyAscending =>
      have other : t.config.defaultSort ≠ .unspecified := by simp [sort]
      rw [fallbackOrder, sort]
      refine ⟨_, ordered (t.fixed_sortTerm _), nofun, fun _ _ => ?_, fun _ none => absurd none other,
        fun _ none => absurd none other⟩
      simp only [String.append_assoc]
      rfl
    | unspecified =>
      have other : t.config.defaultSort ≠ .primaryKeyAscending := by simp [sort]
      rw [fallbackOrder_of_unspecified sort]
      by_cases needed : t.config.backend = .mssql ∧ page ≠ none
      · rw [if_pos needed]
        refine ⟨_, ordered (.word "(SELECT NULL)"), nofun, fun _ key => absurd key other, ?_, ?_⟩
        · exact fun _ _ => iff_of_true rfl needed
        · exact fun _ _ => iff_of_false (by decide) (not_not.mpr needed)
      · rw [if_neg needed]
        refine ⟨_, .nil, nofun, fun _ key => absurd key other, ?_, ?_⟩
        · exact fun _ _ => iff_of_false (by decide) needed
        · exact fun _ _ => iff_of_true rfl needed

/-- A page of SQL Server always has an order. -/
theorem OrderedBy.exists_order {page : Option String} {terms : List Clause.SortTerm}
    {order : String} (h : t.OrderedBy page terms order) (server : t.config.backend = .mssql)
    (paged : page ≠ none) : ∃ s, order = " ORDER BY " ++ s := by
  by_cases some : terms = []
  · cases sort : t.config.defaultSort with
    | primaryKeyAscending => exact ⟨_, (h.key some sort).trans String.append_assoc⟩
    | unspecified => exact ⟨"(SELECT NULL)", (h.neutral some sort).mpr ⟨server, paged⟩⟩
  · exact ⟨_, h.asked some⟩

/-! ## Statements -/

/-- The page clause of a list, if it has one. -/
def pageOf? (t : Table) (o : ListOptions) : Option String :=
  Clause.clause? t.config.backend o.count o.page t.config.defaultCount

/-- The list with some columns, a condition and an order. -/
def listing (t : Table) (o : ListOptions) (fields : List Field) (order : String)
    (condition : Fragment) : Statement :=
  ⟨"SELECT " ++ t.columnsText fields ++ " FROM " ++ t.config.dialect.quoteTable t.name ++
      condition.text t.config.style 0 ++ order ++ ((t.pageOf? o).map (" " ++ ·)).getD "",
    condition.bound t.config.style⟩

/-- The search for an id with some columns. -/
def finding (t : Table) (fields : List Field) (id : String) : Statement :=
  ⟨"SELECT " ++ t.columnsText fields ++ " FROM " ++ t.config.dialect.quoteTable t.name ++
      " WHERE " ++ t.config.dialect.quoteName Field.primaryKeyName ++ " = " ++
      (if t.config.inline then t.config.dialect.quoteText id else t.config.dialect.placeholder 1),
    t.boundIds [id]⟩

theorem fixed_pageClause (t : Table) (window : Option Clause.Window) :
    (t.pageClause window).Fixed t.config.style
      (((window.map (Clause.Window.text t.config.dialect)).map (" " ++ ·)).getD "") := by
  cases window with
  | none => exact .nil
  | some w => exact .word _

theorem isSome_pageOf? (t : Table) (o : ListOptions) : (t.pageOf? o).isSome =
    (Clause.window? o.count o.page t.config.defaultCount).isSome :=
  Option.isSome_map

theorem listStatement_eq {columns order : Fragment}
    (chosen : (t.columnList o.select).outcome = .ok columns)
    (ordered : (t.orderClause o.sort (t.pageOf? o).isSome).outcome = .ok order) :
    t.listStatement o = (t.whereClause o.filter).outcome.map fun condition =>
      Fragment.statement t.config.style (.word "SELECT " :: columns ++
        [.word " FROM ", .table t.name] ++ condition ++ order ++
        t.pageClause (Clause.window? o.count o.page t.config.defaultCount)) := by
  rw [isSome_pageOf?] at ordered
  rw [listStatement_of_draft, listDraft, Draft.outcome_bind, chosen]
  show ((t.whereClause o.filter >>= _).outcome).map _ = _
  rw [Draft.outcome_bind]
  cases (t.whereClause o.filter).outcome with
  | error e => rfl
  | ok condition =>
    show (Draft.outcome (t.orderClause o.sort _ >>= _)).map _ = _
    rw [Draft.outcome_bind, ordered]
    rfl

/-- The columns of a query and the table that it reads. -/
theorem fixed_source (t : Table) (fields : List Field) :
    Fragment.Fixed t.config.style
      (.word "SELECT " :: columnsFragment fields ++ [.word " FROM ", .table t.name])
      ("SELECT " ++ t.columnsText fields ++ (" FROM " ++ t.config.dialect.quoteTable t.name)) :=
  ((Fragment.Fixed.word "SELECT ").append (t.fixed_columnsFragment fields)).append
    ((Fragment.Fixed.word " FROM ").append (.table t.name))

theorem statement_listing (t : Table) (o : ListOptions) (fields : List Field) {ordering : Fragment}
    {order : String} (fixed : ordering.Fixed t.config.style order) (condition : Fragment) :
    Fragment.statement t.config.style (.word "SELECT " :: columnsFragment fields ++
      [.word " FROM ", .table t.name] ++ condition ++ ordering ++
      t.pageClause (Clause.window? o.count o.page t.config.defaultCount)) =
        t.listing o fields order condition := by
  have back := fixed.append
    (t.fixed_pageClause (Clause.window? o.count o.page t.config.defaultCount))
  have around := (t.fixed_source fields).statement_around back condition
  rw [← List.append_assoc] at around
  rw [around, listing, ← String.append_assoc, ← String.append_assoc]
  rfl

theorem findStatement_eq {id : String} (some : Text.trim id ≠ "") {names : List String}
    {fields : List Field}
    (chosen : (t.columnList names).outcome = .ok (columnsFragment fields)) :
    t.findStatement id names = .ok (t.finding fields (Text.trim id)) := by
  have given : ¬ Text.isBlankText id = true := by simpa [Text.isBlankText] using some
  have composed : t.findStatement id names = .ok (Fragment.statement t.config.style
      (.word "SELECT " :: columnsFragment fields ++ [.word " FROM ", .table t.name,
        .word " WHERE ", .column Field.primaryKeyName, .word " = ",
        .operand (.text (Text.trim id))])) := by
    rw [findStatement_of_draft, findDraft, if_neg given, Draft.outcome_bind, chosen]
    rfl
  have asks : Fragment.Fixed t.config.style ([.word " WHERE "] ++
      ([.column Field.primaryKeyName] ++ [.word " = "])) _ :=
    (Fragment.Fixed.word " WHERE ").append ((Fragment.Fixed.column _).append (.word " = "))
  have around := ((t.fixed_source fields).append asks).statement_around .nil
    [.operand (.text (Text.trim id))]
  have bound : Fragment.bound t.config.style [.operand (.text (Text.trim id))] =
      t.boundIds [Text.trim id] := t.bound_idOperands [Text.trim id]
  rw [t.text_id, bound, List.append_nil, String.append_empty, List.append_assoc,
    List.append_assoc] at around
  simp only [← String.append_assoc] at around
  rw [composed, finding]
  exact congrArg Except.ok around

/-- A list has some columns and an order: always when unknown names are passed over, and else
whenever there is a statement. So has a search by an id. -/
structure Lists (t : Table) (o : ListOptions) (fields : List Field) (order : String) : Prop where
  lenient : t.config.strict = false → t.listStatement o =
    (t.whereClause o.filter).outcome.map (t.listing o fields order)
  ok : ∀ s, t.listStatement o = .ok s → ∃ condition,
    (t.whereClause o.filter).outcome = .ok condition ∧ s = t.listing o fields order condition
  find : t.config.strict = false → ∀ id, Text.trim id ≠ "" →
    t.findStatement id o.select = .ok (t.finding fields (Text.trim id))

theorem exists_lists (t : Table) (o : ListOptions) :
    ∃ order, t.OrderedBy (t.pageOf? o) (Clause.termsOf t.registry o.sort) order ∧
      t.Lists o (Clause.columnsOf t.registry o.select) order := by
  obtain ⟨order, fixed, ordered⟩ :=
    t.exists_orderedBy (t.pageOf? o) (Clause.termsOf t.registry o.sort)
  have columns := t.columnList_gives o.select
  have terms := t.orderClause_gives o.sort (t.pageOf? o).isSome
  refine ⟨order, ordered, ⟨fun ignores => ?_, fun s ok => ?_, fun ignores id some => ?_⟩⟩
  · have lenient := policy_of_ignores ignores
    rw [listStatement_eq (columns.ok_of_ignore lenient) (terms.ok_of_ignore lenient)]
    simp only [t.statement_listing o _ fixed]
  · obtain ⟨whole, composed, rfl⟩ := ok_statementOf (q := .list o) ok
    obtain ⟨chosen, first, composed⟩ := Draft.ok_bind.mp composed
    obtain ⟨condition, second, composed⟩ := Draft.ok_bind.mp composed
    obtain ⟨ordering, third, composed⟩ := Draft.ok_bind.mp composed
    rw [← isSome_pageOf?] at third
    obtain rfl := columns.eq_of_ok first
    obtain rfl := terms.eq_of_ok third
    obtain rfl := Draft.ok_pure.mp composed
    exact ⟨condition, second, t.statement_listing o _ fixed condition⟩
  · exact findStatement_eq some (columns.ok_of_ignore (policy_of_ignores ignores))

/-- What stands for nothing may be anywhere among the names and tokens of a list. -/
structure PassesOver (t : Table) : Prop where
  names : ∀ (o : ListOptions) (front back : List String) (name : String),
    Text.trim name = "" ∨ t.registry.resolve? name = none →
    t.listStatement { o with select := front ++ name :: back } =
      t.listStatement { o with select := front ++ back } ∧
    ∀ id, t.findStatement id (front ++ name :: back) = t.findStatement id (front ++ back)
  tokens : ∀ (o : ListOptions) (front back : List String) (token : String),
    Text.trim token = "" ∨ Clause.termOf? t.registry token = none →
    t.listStatement { o with sort := front ++ token :: back } =
      t.listStatement { o with sort := front ++ back }

theorem passesOver (ignores : t.config.strict = false) : t.PassesOver := by
  have lenient := policy_of_ignores ignores
  constructor
  · intro o front back name unknown
    have none : t.registry.resolve? name = none :=
      unknown.elim (fun blank => by rw [Registry.resolve?, blank]; rfl) id
    have same : Clause.columnsOf t.registry (front ++ name :: back) =
        Clause.columnsOf t.registry (front ++ back) := by
      simp [Clause.columnsOf, none]
    have columns : t.columnList (front ++ name :: back) = t.columnList (front ++ back) := by
      rw [columnList, (Clause.select_gives _).ok_of_ignore lenient, columnList,
        (Clause.select_gives _).ok_of_ignore lenient, same]
    refine ⟨?_, fun id => ?_⟩
    · rw [listStatement, listStatement, listDraft, listDraft, columns]
    · rw [findStatement, findStatement, findDraft, findDraft, columns]
  · intro o front back token unknown
    have none : Clause.termOf? t.registry token = none :=
      unknown.elim Clause.termOf?_of_blank id
    have same : Clause.termsOf t.registry (front ++ token :: back) =
        Clause.termsOf t.registry (front ++ back) := by
      simp [Clause.termsOf, none]
    have order (paged : Bool) :
        t.orderClause (front ++ token :: back) paged = t.orderClause (front ++ back) paged := by
      rw [orderClause, (Clause.orderBy_gives _).ok_of_ignore lenient, orderClause,
        (Clause.orderBy_gives _).ok_of_ignore lenient, same]
    simp only [listStatement, listDraft, order]

/-- **First occurrences, in order.** The columns of a list are those that its names stand for,
each where it comes first, and its terms those that its tokens stand for, each column with its
first direction. Without terms the order is the configured one, or else the neutral one of SQL
Server where there is a page, which never stands there without an order. Unknown and blank names
and tokens change nothing when they are passed over, and a column is the same however it is
spelled. -/
theorem first_occurrences_listed (t : Table) :
    (∀ o : ListOptions, ∃ fields terms order,
      FirstOccurrences Field.key (o.select.filterMap t.registry.resolve?) fields ∧
      FirstOccurrences (fun term => term.field.key)
        (o.sort.filterMap (Clause.termOf? t.registry)) terms ∧
      t.Lists o fields order ∧ t.OrderedBy (t.pageOf? o) terms order ∧
      (t.config.backend = .mssql → t.pageOf? o ≠ none → ∃ s, order = " ORDER BY " ++ s)) ∧
    (t.config.strict = false → t.PassesOver) ∧
    ∀ schema, Registry.ofSchema schema = .ok t.registry →
      ∀ f ∈ t.registry.fields, ∀ name, f.SpelledBy name → Clause.Stands t.registry f name := by
  refine ⟨fun o => ?_, passesOver, fun schema built f mem name spelled => ?_⟩
  · obtain ⟨order, ordered, lists⟩ := t.exists_lists o
    exact ⟨_, _, order, .of_distinctBy _ _, .of_distinctBy _ _, lists, ordered,
      ordered.exists_order⟩
  · exact Clause.stands_of_spelledBy (Registry.wellFormed_ofSchema built) mem spelled

/-- Houses on a server where pages need an order. -/
def houses : Table :=
  ⟨"houses", ⟨[
      ⟨"floor___area", "floor___area", .double, false, false, false, none⟩,
      ⟨"house___floor", " house.floor ", .number, false, false, false, none⟩]⟩,
    ⟨.mssql, 30, false, false, .unspecified⟩⟩

/-- A column in three spellings is listed once, in the direction that comes first; a page without
an order gets the neutral one. -/
theorem floors_listed :
    houses.listStatement ⟨["house.floor", "roof", " house___floor ", " house.floor"],
        ["", "- house.floor", "house___floor"], none, none, .empty, false⟩ =
      .ok ⟨"SELECT [house___floor] FROM [houses] ORDER BY [house___floor] DESC " ++
        "OFFSET 0 ROWS FETCH FIRST 30 ROWS ONLY", []⟩ ∧
    houses.listStatement ⟨[], ["-"], none, none, .empty, false⟩ =
      .ok ⟨"SELECT * FROM [houses] ORDER BY (SELECT NULL) " ++
        "OFFSET 0 ROWS FETCH FIRST 30 ROWS ONLY", []⟩ := by
  have listed := (first_occurrences_listed houses).1
  constructor
  · obtain ⟨fields, terms, order, columns, sorted, lists, ordered, -⟩ := listed
      ⟨["house.floor", "roof", " house___floor ", " house.floor"],
        ["", "- house.floor", "house___floor"], none, none, .empty, false⟩
    obtain rfl := columns.unique (.of_distinctBy _ _)
    obtain rfl := sorted.unique (.of_distinctBy _ _)
    obtain rfl := ordered.asked (by decide +kernel)
    refine (lists.lenient rfl).trans ?_
    decide +kernel
  · obtain ⟨fields, terms, order, columns, sorted, lists, ordered, -⟩ := listed
      ⟨[], ["-"], none, none, .empty, false⟩
    obtain rfl := columns.unique .nil
    obtain rfl := sorted.unique (.of_distinctBy _ _)
    obtain rfl := (ordered.neutral (by decide +kernel) rfl).mpr ⟨rfl, by decide⟩
    refine (lists.lenient rfl).trans ?_
    decide +kernel

end DocTable.Table
