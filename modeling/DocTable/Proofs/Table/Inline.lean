import DocTable.Proofs.Statement.Substitution
import DocTable.Proofs.Table.Bound

/-!
# Statements with literals

A table that writes values as literals composes what one that binds them does, in a session that
binds nothing. Of two sessions that write one draft, with literals and with bound values, the
first has the statement of the second after the values are written in (`conclude_inline`). So the
two tables fail on the same requests for the same reasons, and their statements are the same but
for the values (`statements_inline`).
-/

namespace DocTable
set_option autoImplicit false

theorem Style.of_dialect (b : Backend) (inline : Bool) :
    Style.of b.dialect inline = ⟨b.dialect, inline⟩ := by
  cases b <;> cases inline <;> rfl

/-- Two sessions are told one draft: the k-th value that is bound in one of them stands in the
place of its placeholder in the other. -/
theorem Clause.Session.conclude_inline (b : Backend) {d : Draft Fragment}
    (takes : d.Takes Fragment.operands) (spaced : ∀ f, d.outcome = .ok f → f.WellSpaced) :
    (start b.dialect true).conclude d =
      ((start b.dialect false).conclude d).map (Statement.inlined b.dialect) := by
  rw [conclude_eq _ takes, conclude_eq _ takes, start, start, Style.of_dialect, Style.of_dialect]
  cases composed : d.outcome with
  | error e => rfl
  | ok f =>
    have bound : (Style.mk b.dialect false).dialect = b.dialect := rfl
    exact congrArg Except.ok (Fragment.statement_inline b bound (spaced f composed))

namespace Table

/-- The table that writes values as literals, or else binds them. -/
def withInline (t : Table) (inline : Bool) : Table :=
  { t with config := { t.config with inline } }

/-- Only the session knows whether values are bound. -/
theorem statementOf_withInline (t : Table) (q : Request) (inline : Bool) :
    (t.withInline inline).statementOf q =
      (Clause.Session.start t.config.dialect inline).conclude (t.draftOf q) := by
  rw [statementOf_eq]
  cases q <;> rfl

theorem statementOf_inline (t : Table) (q : Request) :
    (t.withInline true).statementOf q =
      ((t.withInline false).statementOf q).map (Statement.inlined t.config.dialect) := by
  rw [statementOf_withInline, statementOf_withInline]
  exact Clause.Session.conclude_inline t.config.backend (t.takes_draftOf q)
    fun f composed => (carries_draftOf (b := t.config.backend) composed).spaced

/-- **Literals for bound values.** Writing values as literals changes no outcome, and a
statement only by putting the k-th bound value in the place of the k-th placeholder. -/
theorem statements_inline (t : Table) :
    (∀ q, (t.withInline true).statementOf q =
      ((t.withInline false).statementOf q).map (Statement.inlined t.config.dialect)) ∧
    (t.withInline true).createTableStatement =
      (t.withInline false).createTableStatement.inlined t.config.dialect := by
  refine ⟨statementOf_inline t, ?_⟩
  rw [Statement.inlined, createTableStatement, createTableStatement, Sql.substitute_nil]
  rfl

end Table
end DocTable
