import DocTable.Executor.Basic

/-!
# Journals

An executor with a journal notes each statement that it is handed, together with the answer.
An operation comes to the same result and state with a journal as without one, so the journal
says what the operation has run (`Operation.Traced`).
-/

namespace DocTable
set_option autoImplicit false

/-- A statement that an executor was handed, with its answer. -/
inductive Event where
  | fetched (s : Statement) (answer : Except Error (List Row))
  | executed (s : Statement) (answer : Except Error Nat)

namespace Event

def statement : Event → Statement
  | .fetched s _ | .executed s _ => s

def failure? : Event → Option Error
  | .fetched _ (.error err) | .executed _ (.error err) => some err
  | .fetched _ (.ok _) | .executed _ (.ok _) => none

theorem failure?_fetched {s : Statement} {answer : Except Error (List Row)} {err : Error}
    (failed : (fetched s answer).failure? = some err) : answer = .error err := by
  cases answer with
  | ok rows => cases failed
  | error cause =>
    cases failed
    rfl

theorem failure?_executed {s : Statement} {answer : Except Error Nat} {err : Error}
    (failed : (executed s answer).failure? = some err) : answer = .error err := by
  cases answer with
  | ok n => cases failed
  | error cause =>
    cases failed
    rfl

end Event

namespace Executor

variable {σ : Type}

/-- The executor that keeps a journal beside its state. -/
def journaled (e : Executor σ) : Executor (σ × List Event) where
  fetchAll s state :=
    let answered := e.fetchAll s state.1
    (answered.1, answered.2, state.2 ++ [.fetched s answered.1])
  execute s state :=
    let answered := e.execute s state.1
    (answered.1, answered.2, state.2 ++ [.executed s answered.1])
  textLiterals := e.textLiterals

end Executor

namespace Operation

variable {σ α β : Type}

theorem runFrom_ofExcept (r : Except Error α) (state : σ) :
    (ofExcept r : Operation σ α).runFrom state = (r, state) := rfl

theorem runFrom_bind (x : Operation σ α) (f : α → Operation σ β) (state : σ) :
    (x >>= f).runFrom state =
      match x.runFrom state with
      | (.ok a, after) => (f a).runFrom after
      | (.error err, after) => (.error err, after) := by
  show StateT.run (ExceptT.bindCont f (x.runFrom state).1) (x.runFrom state).2 = _
  rcases x.runFrom state with ⟨_ | a, after⟩ <;> rfl

theorem runFrom_map (g : α → β) (x : Operation σ α) (state : σ) :
    (g <$> x).runFrom state = ((x.runFrom state).1.map g, (x.runFrom state).2) := by
  rw [map_eq_pure_bind, runFrom_bind]
  rcases x.runFrom state with ⟨_ | a, after⟩ <;> rfl

/-- Operations that run alike from every state are the same. -/
theorem ext {x y : Operation σ α} (h : ∀ state, x.runFrom state = y.runFrom state) : x = y :=
  funext h

/-- Two operations are one, without and with a journal, when they come to the same result and
the same state and the journal only grows; what it grows by fits the result. -/
def Traced (x : Operation σ α) (journaled : Operation (σ × List Event) α)
    (leaves : Except Error α → List Event → Prop) : Prop :=
  ∀ state journal, ∃ events,
    journaled.runFrom (state, journal) =
      ((x.runFrom state).1, (x.runFrom state).2, journal ++ events) ∧
    leaves (x.runFrom state).1 events

namespace Traced

variable {x : Operation σ α} {x' : Operation (σ × List Event) α}
variable {leaves : Except Error α → List Event → Prop}

theorem ofExcept {r : Except Error α} (none : leaves r []) :
    Traced (ofExcept r : Operation σ α) (ofExcept r) leaves := by
  intro state journal
  refine ⟨[], ?_, none⟩
  rw [List.append_nil]
  rfl

theorem mono {less : Except Error α → List Event → Prop} (h : Traced x x' leaves)
    (weaker : ∀ result events, leaves result events → less result events) :
    Traced x x' less := by
  intro state journal
  obtain ⟨events, run, left⟩ := h state journal
  exact ⟨events, run, weaker _ _ left⟩

/-- The events of two operations in a row, when the first one succeeds. -/
theorem bind {f : α → Operation σ β} {f' : α → Operation (σ × List Event) β}
    {both : Except Error β → List Event → Prop} (h : Traced x x' leaves)
    (fails : ∀ err events, leaves (.error err) events → both (.error err) events)
    (goesOn : ∀ a before, leaves (.ok a) before →
      Traced (f a) (f' a) fun result events => both result (before ++ events)) :
    Traced (x >>= f) (x' >>= f') both := by
  intro state journal
  obtain ⟨before, run, left⟩ := h state journal
  rw [runFrom_bind, runFrom_bind, run]
  -- From here the two runs only differ by the journal.
  generalize x.runFrom state = ran at left ⊢
  rcases ran with ⟨_ | a, after⟩
  · exact ⟨before, rfl, fails _ _ left⟩
  · obtain ⟨events, run', left'⟩ := goesOn a before left after (journal ++ before)
    refine ⟨before ++ events, ?_, left'⟩
    rw [← List.append_assoc]
    exact run'

/-- What needs no executor adds no event. -/
theorem andThen {g : α → Except Error β} {others : Except Error β → List Event → Prop}
    (h : Traced x x' leaves)
    (same : ∀ result events, leaves result events → others (result >>= g) events) :
    Traced (x >>= fun a => Operation.ofExcept (g a)) (x' >>= fun a => Operation.ofExcept (g a))
      others := by
  refine h.bind (fun err events left => same _ _ left) fun a before left => ofExcept ?_
  rw [List.append_nil]
  exact same _ _ left

variable (e : Executor σ) (s : Statement)

/-- A select is one event, with the executor's answer. -/
theorem rows {answers : Except Error (List Row) → Prop}
    (known : ∀ state, answers (e.fetchAll s state).1) :
    Traced (e.rows s) (e.journaled.rows s) fun result events =>
      answers result ∧ events = [.fetched s result] := by
  intro state journal
  exact ⟨_, rfl, known state, rfl⟩

theorem affected {answers : Except Error Nat → Prop}
    (known : ∀ state, answers (e.execute s state).1) :
    Traced (e.affected s) (e.journaled.affected s) fun result events =>
      answers result ∧ events = [.executed s result] := by
  intro state journal
  exact ⟨_, rfl, known state, rfl⟩

end Traced
end Operation
end DocTable
