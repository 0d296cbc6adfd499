import DocTable.Error
import DocTable.Statement.Basic

/-!
# Drafts

Composing a fragment takes operands one by one and may fail on the way. A draft
keeps the operands taken so far, also when it has failed, so that what is
composed next knows how many values are bound.
-/

namespace DocTable
set_option autoImplicit false

structure Draft (α : Type) where
  /-- The operands taken, in order. -/
  taken : List SqlValue
  outcome : Except Error α

namespace Draft

protected def pure {α : Type} (a : α) : Draft α := ⟨[], .ok a⟩

protected def bind {α β : Type} (x : Draft α) (f : α → Draft β) : Draft β :=
  match x.outcome with
  | .error e => ⟨x.taken, .error e⟩
  | .ok a => ⟨x.taken ++ (f a).taken, (f a).outcome⟩

instance : Monad Draft where
  pure := Draft.pure
  bind := Draft.bind

/-- Nothing is taken, and the draft fails. -/
def fail {α : Type} (e : Error) : Draft α := ⟨[], .error e⟩

/-- A result that takes nothing. -/
def ofExcept {α : Type} (r : Except Error α) : Draft α := ⟨[], r⟩

/-- Takes a value as the next operand. -/
def take (v : SqlValue) : Draft SqlValue := ⟨[v], .ok v⟩

/-- Takes a value as an operand of a field's type. -/
def takeFor (f : Field) (v : Json) : Draft SqlValue :=
  match f.coerce v with
  | .ok value => take value
  | .error cause => fail (.validation (.coercion cause))

instance : LawfulMonad Draft := LawfulMonad.mk' Draft
  (by
    intro α x
    rcases x with ⟨t, e | a⟩
    · rfl
    · simp [Functor.map, Draft.bind, Draft.pure])
  (by intro α β a f; simp [bind, pure, Draft.bind, Draft.pure])
  (by
    intro α β γ x f g
    rcases x with ⟨t, e | a⟩
    · rfl
    · simp only [bind, Draft.bind]
      rcases f a with ⟨u, e | b⟩ <;> simp [List.append_assoc])

@[simp] theorem taken_pure {α : Type} (a : α) : (pure a : Draft α).taken = [] := rfl

@[simp] theorem outcome_pure {α : Type} (a : α) : (pure a : Draft α).outcome = .ok a := rfl

@[simp] theorem outcome_fail {α : Type} (e : Error) : (fail e : Draft α).outcome = .error e := rfl

/-- What follows a draft is composed only from a result. -/
@[simp] theorem outcome_bind {α β : Type} (x : Draft α) (f : α → Draft β) :
    (x >>= f).outcome = x.outcome.bind fun a => (f a).outcome := by
  rcases x with ⟨t, e | a⟩ <;> rfl

/-- What follows a draft takes its operands after it. -/
theorem taken_bind {α β : Type} {x : Draft α} {a : α} (h : x.outcome = .ok a)
    (f : α → Draft β) : (x >>= f).taken = x.taken ++ (f a).taken := by
  rcases x with ⟨t, e | b⟩
  · cases h
  · cases h; rfl

@[simp] theorem taken_map {α β : Type} (f : α → β) (x : Draft α) : (f <$> x).taken = x.taken := by
  rcases x with ⟨t, e | a⟩
  · rfl
  · simp [Functor.map, Draft.bind, Draft.pure]

@[simp] theorem outcome_map {α β : Type} (f : α → β) (x : Draft α) :
    (f <$> x).outcome = x.outcome.map f := by
  rcases x with ⟨t, e | a⟩ <;> rfl

end Draft
end DocTable
