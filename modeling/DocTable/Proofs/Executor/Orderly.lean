import DocTable.Proofs.Executor.Journal
import DocTable.Proofs.Statement.Refusals

/-!
# Results and journals

A statement that cannot be composed fails by the client's fault, before anything is run; all
that can fail later is the database. Operations built that way are in order (`Orderly`): the
lemmas add one step at a time.
-/

namespace DocTable
set_option autoImplicit false

/-- What an executor reports of itself. -/
def Error.isBackend : Error → Bool
  | .execution _ | .sql _ => true
  | _ => false

theorem Error.isClient_of_isBackend {err : Error} (backend : err.isBackend = true) :
    err.isClient = false := by
  cases err with
  | execution _ | sql _ => rfl
  | _ => cases backend

def FailsInBackend {α : Type} (x : Except Error α) : Prop :=
  ∀ err, x = .error err → err.isBackend = true

namespace FailsInBackend

variable {α : Type}

theorem ok (a : α) : FailsInBackend (.ok a) := by
  intro err failed
  cases failed

theorem error {err : Error} (backend : err.isBackend = true) :
    FailsInBackend (.error err : Except Error α) := by
  rintro _ ⟨⟩
  exact backend

end FailsInBackend

/-- An executor whose failures are its own, and not the client's. -/
structure Executor.FailsInBackend {σ : Type} (e : Executor σ) : Prop where
  fetchAll : ∀ s state, DocTable.FailsInBackend (e.fetchAll s state).1
  execute : ∀ s state, DocTable.FailsInBackend (e.execute s state).1

/-! ## Results and journals in order -/

/-- A result and a journal that belong together. -/
structure Orderly {α : Type} (result : Except Error α) (journal : List Event) : Prop where
  /-- A failure is the client's exactly when nothing was run. -/
  client : ∀ err, result = .error err → (err.isClient = true ↔ journal = [])
  /-- The first failure of the executor is the result, and the last event. -/
  failure : ∀ before event after err, journal = before ++ event :: after →
    event.failure? = some err → after = [] ∧ result = .error err
  ran : ∀ a, result = .ok a → journal ≠ []

namespace Orderly

variable {α β : Type} {result : Except Error α} {journal : List Event}

theorem refused {err : Error} (client : err.isClient = true) :
    Orderly (.error err : Except Error α) [] := by
  constructor
  case client =>
    rintro _ ⟨⟩
    simp [client]
  case failure =>
    intro before event after err split
    simp at split
  case ran => exact nofun

theorem single {event : Event} (backend : FailsInBackend result)
    (fails : ∀ err, event.failure? = some err → result = .error err) :
    Orderly result [event] := by
  constructor
  case client =>
    intro err failed
    simp [Error.isClient_of_isBackend (backend err failed)]
  case failure =>
    intro before other after err split failed
    obtain ⟨rfl, same⟩ | ⟨-, none⟩ := List.singleton_eq_append_iff.mp split
    · obtain ⟨rfl, rfl⟩ := List.cons.inj same
      exact ⟨rfl, fails err failed⟩
    · cases none
  case ran => exact fun _ _ => List.cons_ne_nil _ _

/-- Nothing comes after an event that failed. -/
theorem failed {event : Event} {err : Error} (own : err.isBackend = true)
    (fails : event.failure? = some err) : Orderly (.error err : Except Error α) [event] := by
  refine single (.error own) fun cause same => ?_
  rw [Option.some.inj (fails.symm.trans same)]

/-- An event that went well may come before others. -/
theorem cons {event : Event} (h : Orderly result journal) (some : journal ≠ [])
    (well : event.failure? = none) : Orderly result (event :: journal) := by
  constructor
  case client =>
    intro err failed
    have notClient : ¬ err.isClient = true := fun client => some ((h.client err failed).mp client)
    simp [notClient]
  case failure =>
    intro before other after err split failed
    cases before with
    | nil =>
      obtain ⟨rfl, rfl⟩ := List.cons.inj split
      rw [well] at failed
      cases failed
    | cons first before => exact h.failure before other after err (List.cons.inj split).2 failed
  case ran => exact fun _ _ => List.cons_ne_nil _ _

/-- What is made of a result may fail, but not by the client. -/
theorem andThen {g : α → Except Error β} (h : Orderly result journal)
    (backend : ∀ a, FailsInBackend (g a)) :
    Orderly (result >>= g) journal := by
  cases result with
  | error cause =>
    refine ⟨?_, ?_, nofun⟩
    · rintro _ ⟨⟩
      exact h.client cause rfl
    · intro before event after err split failed
      obtain ⟨last, same⟩ := h.failure before event after err split failed
      cases same
      exact ⟨last, rfl⟩
  | ok a =>
    have some := h.ran a rfl
    refine ⟨?_, ?_, fun _ _ => some⟩
    · intro err failed
      simp [Error.isClient_of_isBackend (backend a err failed), some]
    · intro before event after err split failed
      cases (h.failure before event after err split failed).2

end Orderly

/-- The statement that was composed, if it was, and no other. -/
def HandsOver (composed : Except Error Statement) (journal : List Event) : Prop :=
  journal.map Event.statement = composed.toOption.toList

namespace Operation.Traced

variable {σ α β : Type} {x : Operation σ α} {x' : Operation (σ × List Event) α}
variable {hands : List Event → Prop} {e : Executor σ}

/-- What is made of the result of an operation leaves the events as they are. -/
theorem backed {g : α → Except Error β}
    (h : Traced x x' fun result events => Orderly result events ∧ hands events)
    (backend : ∀ a, FailsInBackend (g a)) :
    Traced (x >>= fun a => Operation.ofExcept (g a)) (x' >>= fun a => Operation.ofExcept (g a))
      fun result events => Orderly result events ∧ hands events :=
  h.andThen fun _ _ ⟨orderly, handed⟩ => ⟨orderly.andThen backend, handed⟩

theorem map (g : α → β)
    (h : Traced x x' fun result events => Orderly result events ∧ hands events) :
    Traced (g <$> x) (g <$> x') fun result events => Orderly result events ∧ hands events := by
  rw [map_eq_pure_bind, map_eq_pure_bind]
  exact h.backed fun _ => .ok _

/-- A statement that is composed first is run once, or the client's fault is the result. -/
theorem composing {composed : Except Error Statement} (byClient : FailsByClient composed)
    {f : Statement → Operation σ α} {f' : Statement → Operation (σ × List Event) α}
    (runs : ∀ s, Traced (f s) (f' s) fun result events =>
      Orderly result events ∧ HandsOver (.ok s) events) :
    Traced (Operation.ofExcept composed >>= f) (Operation.ofExcept composed >>= f')
      fun result events => Orderly result events ∧ HandsOver composed events := by
  cases composed with
  | error err =>
    have refused : Orderly (.error err : Except Error α) [] := .refused (byClient err rfl)
    exact Traced.ofExcept ⟨refused, rfl⟩
  | ok s => exact runs s

variable (backend : e.FailsInBackend) (s : Statement)
include backend

theorem fetched : Traced (e.rows s) (e.journaled.rows s) fun result events =>
    Orderly result events ∧ ∃ answer, events = [.fetched s answer] := by
  refine (rows e s (backend.fetchAll s)).mono ?_
  rintro result _ ⟨known, rfl⟩
  exact ⟨.single known fun _ => Event.failure?_fetched, result, rfl⟩

theorem executed : Traced (e.affected s) (e.journaled.affected s) fun result events =>
    Orderly result events ∧ ∃ answer, events = [.executed s answer] := by
  refine (affected e s (backend.execute s)).mono ?_
  rintro result _ ⟨known, rfl⟩
  exact ⟨.single known fun _ => Event.failure?_executed, result, rfl⟩

end Operation.Traced
end DocTable
