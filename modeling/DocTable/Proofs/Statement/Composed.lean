import DocTable.Proofs.Statement.Refusals
import DocTable.Statement.Draft

/-!
# Drafts composed of a client's values

A draft is composed when it takes texts, and values for fields, and fails by the client's fault
only (`Draft.Composed`). What is known of these parts is known of every composed draft by one
induction, as who is at fault when it fails (`Draft.Composed.failsByClient`).
-/

namespace DocTable.Draft
set_option autoImplicit false

/-- Drafts made of texts, of values for fields, and of failures of the client. -/
inductive Composed : {α : Type} → Draft α → Prop where
  | pure {α : Type} (a : α) : Composed (pure a)
  | fail {α : Type} {e : Error} : e.isClient = true → Composed (fail e : Draft α)
  | text (s : String) : Composed (take (.text s))
  | takeFor (f : Field) (v : Json) : Composed (takeFor f v)
  | bind {α β : Type} {x : Draft α} {g : α → Draft β} :
      Composed x → (∀ a, Composed (g a)) → Composed (x >>= g)

namespace Composed

variable {α β : Type} {x : Draft α}

theorem ofExcept {r : Except Error α} (client : FailsByClient r) : Composed (ofExcept r) := by
  cases r with
  | error e => exact .fail (client e rfl)
  | ok a => exact .pure a

theorem map (g : α → β) (composed : Composed x) : Composed (g <$> x) := by
  rw [← bind_pure_comp]
  exact composed.bind fun a => .pure (g a)

theorem mapM {g : α → Draft β} (each : ∀ a, Composed (g a)) (xs : List α) :
    Composed (xs.mapM g) := by
  induction xs with
  | nil => exact .pure []
  | cons x xs ih =>
    rw [List.mapM_cons]
    exact (each x).bind fun _ => ih.bind fun _ => .pure _

/-- A value that does not fit its field is the client's fault too. -/
theorem failsByClient (composed : Composed x) : FailsByClient x.outcome := by
  induction composed with
  | pure a => exact .ok a
  | fail client => exact .error client
  | text s => exact .ok _
  | takeFor f v =>
    unfold Draft.takeFor
    cases f.coerce v with
    | ok value => exact .ok value
    | error cause => exact .error rfl
  | bind _ _ first each =>
    rw [outcome_bind]
    exact first.bind each

end Composed
end DocTable.Draft
