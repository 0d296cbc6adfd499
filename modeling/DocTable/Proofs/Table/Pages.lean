import DocTable.Proofs.Clause.Pages
import DocTable.Proofs.Decimal.Numeral
import DocTable.Proofs.Statement.InTurn
import DocTable.Proofs.Table.Request

/-!
# Pages of a table

A list request names its page by a count and a number, in a query by texts of them. Its
statement ends with the clause of that page, and the clauses of all pages of one size list the
rows block by block (`Table.pages_exact`).
-/

namespace DocTable
set_option autoImplicit false

namespace ListQuery

/-- The number of a query text, if it is one of 64 bits. -/
def Gives (text : Option String) (n : Option Int) : Prop :=
  ∀ i, n = some i ↔ ∃ s, text = some s ∧ Decimal.Numeral (Text.trim s).toList i ∧
    Bounds.fitsInt64 i = true

theorem gives_number? (text : Option String) : Gives text (number? text) := by
  intro i
  rw [number?, Option.bind_eq_some_iff]
  simp only [Decimal.int64?_eq_some_iff]

theorem exists_clause?_eq {q : ListQuery} {o : ListOptions} (ok : q.options = .ok o)
    (b : Backend) (configured : Int) :
    ∃ count page, Gives q.count count ∧ Gives q.page page ∧
      Clause.clause? b o.count o.page configured = Clause.clause? b count page configured := by
  have filtered :
      o.count = (number? q.count).filter (fun n => decide (0 < n ∨ n = Clause.unlimited)) ∧
        o.page = (number? q.page).filter fun n => decide (0 < n) := by
    unfold options at ok
    split at ok
    all_goals
      obtain ⟨filter, -, read⟩ := Except.ok_bind.mp ok
      cases read
      exact ⟨rfl, rfl⟩
  refine ⟨_, _, gives_number? q.count, gives_number? q.page, ?_⟩
  rw [Clause.clause?, Clause.clause?, filtered.1, filtered.2, Clause.window?_filter]

end ListQuery

/-! ## Statements with a page -/

namespace Table

variable (t : Table) (o : ListOptions)

/-- A list before its page clause. -/
def unpagedDraft : Draft Fragment := do
  let columns ← t.columnList o.select
  let condition ← t.whereClause o.filter
  let order ← t.orderClause o.sort (decide (o.count ≠ some (-1)))
  return .word "SELECT " :: columns ++ [.word " FROM ", .table t.name] ++ condition ++ order

theorem listDraft_eq :
    t.listDraft o =
      (· ++ t.pageClause (Clause.window? o.count o.page t.config.defaultCount)) <$>
        t.unpagedDraft o := by
  have paged : (Clause.window? o.count o.page t.config.defaultCount).isSome =
      decide (o.count ≠ some (-1)) := by
    rw [Bool.eq_iff_iff, decide_eq_true_iff, ne_eq, ← Clause.window?_eq_none_iff,
      Option.isSome_iff_ne_none]
  simp only [listDraft, unpagedDraft, paged, map_bind, map_pure]

/-- Pages differ only in the clause at the end. -/
theorem exists_head :
    ∃ head, ∀ page s, t.listStatement { o with page } = .ok s →
      s.sql = head ++ ((Clause.clause? t.config.backend o.count page t.config.defaultCount).map
        (" " ++ ·)).getD "" := by
  have ends (page : Option Int) (s : Statement) (ok : t.listStatement { o with page } = .ok s) :
      ∃ f, (t.unpagedDraft o).outcome = .ok f ∧ s.sql = f.text t.config.style 0 ++
        ((Clause.clause? t.config.backend o.count page t.config.defaultCount).map
          (" " ++ ·)).getD "" := by
    obtain ⟨whole, composed, rfl⟩ := ok_statementOf (q := .list { o with page }) ok
    have composed : ((· ++ t.pageClause (Clause.window? o.count page t.config.defaultCount)) <$>
        t.unpagedDraft o).outcome = .ok whole := t.listDraft_eq { o with page } ▸ composed
    obtain ⟨f, unpaged, rfl⟩ := Draft.ok_map.mp composed
    refine ⟨f, unpaged, ?_⟩
    show Fragment.text t.config.style 0 (f ++ _) = _
    rw [Fragment.text_append, Clause.clause?]
    cases Clause.window? o.count page t.config.defaultCount with
    | none => rfl
    | some w => exact congrArg (_ ++ ·) (Fragment.text_word _ _)
  cases composed : (t.unpagedDraft o).outcome with
  | error e =>
    refine ⟨"", fun page s ok => ?_⟩
    obtain ⟨f, ok, -⟩ := ends page s ok
    cases composed.symm.trans ok
  | ok f =>
    refine ⟨f.text t.config.style 0, fun page s ok => ?_⟩
    obtain ⟨g, ok, text⟩ := ends page s ok
    cases composed.symm.trans ok
    exact text

/-! ## Exactness -/

/-- Exactly the asked rows: there is no page clause iff the count asks for all rows, and else the
clause has the page size and an offset of 64 bits with which it lists just the block of the page,
so that pages one to `n` are the first `n` blocks. Query texts count as the numbers that they
are, and the clause ends the statement of a list, whatever its other parts are. -/
theorem pages_exact (b : Backend) (count : Option Int) (configured : Int) :
    (∀ page, Clause.clause? b count page configured = none ↔ count = some (-1)) ∧
    (count ≠ some (-1) →
      (∀ page, ∃ offset ≤ Bounds.maxUInt64, Clause.clause? b count page configured =
        some (b.pageClause (Clause.pageSize count configured) offset)) ∧
      ∀ {α : Type} (rows : List α), rows.length ≤ Bounds.maxUInt64 →
        (∀ page out, Clause.Lists b rows (Clause.clause? b count page configured) out ↔
          out = Clause.block (Clause.pageSize count configured) (Clause.pageNumber page) rows) ∧
        ∀ n outs,
          List.Forall₂ (fun k out =>
            Clause.Lists b rows (Clause.clause? b count (some (k + 1 : Nat)) configured) out)
            (List.range n) outs →
          outs.flatten = rows.take (n * Clause.pageSize count configured)) ∧
    (∀ q o, ListQuery.options q = .ok o → ∃ count page,
      ListQuery.Gives q.count count ∧ ListQuery.Gives q.page page ∧
        Clause.clause? b o.count o.page configured = Clause.clause? b count page configured) ∧
    ∀ (t : Table) (o : ListOptions), ∃ head, ∀ page s, t.listStatement { o with page } = .ok s →
      s.sql = head ++ ((Clause.clause? t.config.backend o.count page t.config.defaultCount).map
        (" " ++ ·)).getD "" := by
  refine ⟨fun page => ?_, fun limited => ⟨fun page => ?_, fun rows storable => ⟨?_, ?_⟩⟩, ?_,
    exists_head⟩
  · rw [Clause.clause?, Option.map_eq_none_iff, Clause.window?_eq_none_iff]
  · exact ⟨_, Nat.min_le_right _ _, Clause.clause?_of_limited limited⟩
  · exact fun page out => Clause.lists_block_iff limited storable
  · exact fun n outs => Clause.lists_pages limited storable
  · exact fun q o ok => ListQuery.exists_clause?_eq ok b configured

/-- The greatest page of the greatest size is past all rows, not back at the first ones. -/
theorem page_past_all :
    (Clause.clause? .postgres (some 9223372036854775807) (some 9223372036854775807) 30 =
      some "LIMIT 9223372036854775807 OFFSET 18446744073709551615") ∧
    Clause.Lists .postgres [1, 2, 3]
      (Clause.clause? .postgres (some 9223372036854775807) (some 9223372036854775807) 30) [] := by
  refine ⟨by decide, ?_⟩
  exact (((pages_exact .postgres (some 9223372036854775807) 30).2.1 (by decide)).2 [1, 2, 3]
    (by decide)).1 _ _ |>.mpr (by decide)

end Table

end DocTable
