import DocTable.Proofs.Clause.Constants
import DocTable.Proofs.Clause.Strictness
import DocTable.Proofs.Table.Bound
import DocTable.Proofs.Table.Refusals

/-!
# Null in statements

A statement writes null for a value of its request only when the client gave null, whether its
values are bound or written as literals: coercion makes null of null only, and none of the
doubles for which a literal is null (`Table.coercion_sound`).
-/

namespace DocTable
set_option autoImplicit false

open Condition (escapes)
open Fragment (constants_append_subset constants_word_subset)

/-! ## Constants of statements -/

namespace Table

variable {t : Table} {f : Fragment}

theorem constants_columnList {names : List String} (ok : (t.columnList names).outcome = .ok f) :
    f.constants ⊆ escapes := by
  obtain ⟨columns, selected, rfl⟩ := Draft.ok_map.mp ok
  cases columns with
  | none => exact List.nil_subset _
  | some columns =>
    rw [Option.getD_some, Clause.constants_select selected]
    exact List.nil_subset _

theorem constants_whereClause {filter : Filter} (ok : (t.whereClause filter).outcome = .ok f) :
    f.constants ⊆ escapes := by
  obtain ⟨conditions, composed, rfl⟩ := Draft.ok_map.mp ok
  split
  · rename_i written
    exact constants_word_subset (Condition.constants_conjunction written)
  · exact List.nil_subset _

/-- Neither the key's order nor the order of a page has a value. -/
theorem constants_fallbackOrder {paged : Bool} (chosen : t.fallbackOrder paged = some f) :
    f.constants = [] := by
  unfold fallbackOrder at chosen
  split at chosen
  · cases chosen
    rfl
  · split at chosen
    · obtain ⟨s, -, rfl⟩ := Option.map_eq_some_iff.mp chosen
      rfl
    · cases chosen

theorem constants_orderClause {tokens : List String} {paged : Bool}
    (ok : (t.orderClause tokens paged).outcome = .ok f) : f.constants ⊆ escapes := by
  obtain ⟨order, ordered, rfl⟩ := Draft.ok_map.mp ok
  cases chosen : (order <|> t.fallbackOrder paged) with
  | none => exact List.nil_subset _
  | some terms =>
    have none : terms.constants = [] := by
      cases order with
      | some o =>
        obtain rfl := Option.some.inj chosen
        exact Clause.constants_orderBy ordered
      | none => exact constants_fallbackOrder chosen
    refine constants_word_subset ?_
    rw [none]
    exact List.nil_subset _

theorem constants_pageClause (window : Option Clause.Window) :
    (t.pageClause window).constants ⊆ escapes := by
  cases window <;> exact List.nil_subset _

theorem constants_keyAmong {ids : List String} (ok : (Clause.idValues ids).outcome = .ok f) :
    (keyAmong f).constants ⊆ escapes := by
  refine constants_append_subset (List.nil_subset _) ?_
  rw [Fragment.constants_parenthesized, Clause.constants_idValues ok]
  exact List.nil_subset _

theorem constants_draftOf {q : Request} (ok : (t.draftOf q).outcome = .ok f) :
    f.constants ⊆ escapes := by
  cases q with
  | count filter =>
    obtain ⟨condition, composed, rfl⟩ := Draft.ok_return.mp ok
    exact constants_append_subset (List.nil_subset _) (constants_whereClause composed)
  | list o =>
    obtain ⟨columns, selected, ok⟩ := Draft.ok_bind.mp ok
    obtain ⟨condition, composed, ok⟩ := Draft.ok_bind.mp ok
    obtain ⟨order, ordered, rfl⟩ := Draft.ok_return.mp ok
    have chosen := constants_append_subset (g := [.word " FROM ", .table t.name])
      (constants_word_subset (s := "SELECT ") (constants_columnList selected)) (List.nil_subset _)
    have ordered := constants_append_subset
      (constants_append_subset chosen (constants_whereClause composed))
      (constants_orderClause ordered)
    exact constants_append_subset ordered (constants_pageClause _)
  | find id select =>
    rw [draftOf, findDraft] at ok
    split at ok
    · cases ok
    obtain ⟨columns, selected, ok⟩ := Draft.ok_bind.mp ok
    obtain ⟨value, -, rfl⟩ := Draft.ok_return.mp ok
    exact constants_append_subset (constants_word_subset (constants_columnList selected))
      (List.nil_subset _)
  | insert fresh records =>
    obtain ⟨values, inserted, rfl⟩ := Draft.ok_return.mp ok
    refine constants_append_subset (List.nil_subset _) ?_
    rw [Clause.constants_insertion inserted]
    exact List.nil_subset _
  | selectByIds ids =>
    obtain ⟨list, listed, rfl⟩ := Draft.ok_return.mp ok
    exact constants_append_subset (List.nil_subset _) (constants_keyAmong listed)
  | update ids record =>
    rw [draftOf, updateDraft] at ok
    split at ok
    · cases ok
    obtain ⟨assignments, assigned, ok⟩ := Draft.ok_bind.mp ok
    obtain ⟨list, listed, rfl⟩ := Draft.ok_return.mp ok
    refine constants_append_subset (constants_append_subset (List.nil_subset _) ?_)
      (constants_keyAmong listed)
    rw [Clause.constants_assignments assigned]
    exact List.nil_subset _
  | delete ids =>
    obtain ⟨list, listed, rfl⟩ := Draft.ok_return.mp ok
    exact constants_append_subset (List.nil_subset _) (constants_keyAmong listed)

end Table

/-! ## Clauses -/

namespace ClauseRequest

variable {r : Registry} {policy : FieldPolicy}

theorem composed_draft (q : ClauseRequest) : Draft.Composed (q.draft r policy) := by
  cases q with
  | select names => exact .ofExcept (Clause.select_failsByClient names)
  | order tokens => exact .ofExcept (Clause.orderBy_failsByClient tokens)
  | condition filter => exact (Condition.composed_ofMembers filter.members none).map _
  | insertion records => exact (Clause.composed_insertion records).map _
  | assignments record => exact (Clause.composed_assignments record).map _

theorem constants_draft {q : ClauseRequest} {f : Fragment}
    (ok : (q.draft r policy).outcome = .ok (some f)) : f.constants ⊆ escapes := by
  have of_nil (none : f.constants = []) : f.constants ⊆ escapes := none ▸ List.nil_subset _
  cases q with
  | select names => exact of_nil (Clause.constants_select ok)
  | order tokens => exact of_nil (Clause.constants_orderBy ok)
  | condition filter =>
    obtain ⟨conditions, -, written⟩ := Draft.ok_map.mp ok
    exact Condition.constants_conjunction written
  | insertion records =>
    obtain ⟨f, inserted, ⟨⟩⟩ := Draft.ok_map.mp ok
    exact of_nil (Clause.constants_insertion inserted)
  | assignments record =>
    obtain ⟨f, assigned, ⟨⟩⟩ := Draft.ok_map.mp ok
    exact of_nil (Clause.constants_assignments assigned)

end ClauseRequest

/-! ## Null -/

theorem Condition.isFinite_of_escapes {vs : List SqlValue} (escapes : vs ⊆ escapes) :
    ∀ v ∈ vs, v.IsFinite := by
  intro v mem
  obtain rfl := List.mem_singleton.mp (escapes mem)
  trivial

namespace Table

variable {t : Table} {q : Request} {f : Fragment}

/-- The operands of a statement are the values of its request, each coerced to its field. -/
theorem coerced_operands (ok : (t.draftOf q).outcome = .ok f) :
    List.Forall₂ (fun g v => g.field.coerce g.value = .ok v) (q.given t.registry) f.operands := by
  have carries := carries_draftOf (b := t.config.backend) ok
  rw [carries.operands_eq, List.forall₂_map_right_iff, List.forall₂_same]
  exact carries.fits

/-- **Coercion is sound.** What a column's type makes of a value is null just for null, and else
of that type: the very text, truth value or whole number that was given, or a finite double; no
list and no object is taken, and every number has a double. So no literal is null for
another value than null: it would be for an infinite double or none, which no clause and no
statement has among its operands and constants. In a statement, the operands are the values of
the request, and one is written as null just when the client gave null. -/
theorem coercion_sound :
    (∀ (type : ColumnType) column v x, type.coerce column v = .ok x →
      (x = .null ↔ v = .null) ∧ (v ≠ .null → type.Keeps v x)) ∧
    (∀ (type : ColumnType) column x, (∀ items, type.coerce column (.arr items) ≠ .ok x) ∧
      ∀ members, type.coerce column (.obj members) ≠ .ok x) ∧
    (∀ column (n : Json.Number),
      ColumnType.double.coerce column (.num n) = .ok (.double n.toDouble)) ∧
    (∀ (b : Backend) v, b.dialect.literal v = "NULL" ↔ v = .null ∨ ¬ v.IsFinite) ∧
    (∀ r policy (q : ClauseRequest), (∀ v ∈ (q.draft r policy).taken, v.IsFinite) ∧
      ∀ f, (q.draft r policy).outcome = .ok (some f) → ∀ v ∈ f.constants, v.IsFinite) ∧
    ∀ (t : Table) (q : Request), (∀ v ∈ (t.draftOf q).taken, v.IsFinite) ∧
      ∀ s, t.statementOf q = .ok s →
        ∃ f, (t.draftOf q).outcome = .ok f ∧ f.statement t.config.style = s ∧
          (∀ v ∈ f.operands ++ f.constants, v.IsFinite) ∧
          List.Forall₂ (fun g v => g.field.coerce g.value = .ok v ∧
              ∀ before, (Piece.operand v).text t.config.style before = "NULL" ↔ g.value = .null)
            (q.given t.registry) f.operands := by
  refine ⟨?_, fun type column x => ⟨nofun, nofun⟩, fun _ _ => rfl, Backend.literal_eq_null_iff,
    ?_, ?_⟩
  · exact fun type column v x ok => ⟨ColumnType.eq_null_iff ok, ColumnType.keeps_of_coerce ok⟩
  · intro r policy q
    refine ⟨q.composed_draft.isFinite, fun f ok => ?_⟩
    exact Condition.isFinite_of_escapes (ClauseRequest.constants_draft ok)
  · intro t q
    refine ⟨(composed_draftOf q).isFinite, fun s written => ?_⟩
    obtain ⟨f, ok, same⟩ := ok_statementOf written
    refine ⟨f, ok, same, ?_, ?_⟩
    · have operands : ∀ v ∈ f.operands, v.IsFinite := by
        intro v mem
        obtain ⟨g, -, coerced⟩ := exists_of_forall₂ (coerced_operands ok).flip mem
        exact ColumnType.isFinite_of_coerce coerced
      have constants := Condition.isFinite_of_escapes (constants_draftOf ok)
      exact List.forall_mem_append.mpr ⟨operands, constants⟩
    · refine (coerced_operands ok).imp fun g v coerced => ⟨coerced, fun before => ?_⟩
      rw [Piece.operand_eq_null_iff t.config.backend rfl (ColumnType.isFinite_of_coerce coerced),
        ColumnType.eq_null_iff coerced]

/-- The greatest double below `2 ^ 63` becomes that very number. -/
theorem greatest_double_kept :
    ColumnType.number.coerce "k" (.num (.double ⟨0x43dfffffffffffff⟩)) =
      .ok (.integer 9223372036854774784) ∧
    ∀ q, (Json.num (.double ⟨0x43dfffffffffffff⟩)).StandsFor q ↔
      q = (9223372036854774784 : ℤ) := by
  have ok : ColumnType.number.coerce "k" (.num (.double ⟨0x43dfffffffffffff⟩)) =
      .ok (.integer 9223372036854774784) := by decide +kernel
  obtain ⟨i, ⟨⟩, -, stands⟩ := (coercion_sound.1 _ _ _ _ ok).2 nofun
  exact ⟨ok, stands⟩

end Table
end DocTable
