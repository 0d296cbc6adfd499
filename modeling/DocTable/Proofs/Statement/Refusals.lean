import DocTable.Error

/-!
# Failures of the client

What is made of parts that fail by the client's fault only fails by the client's fault only
(`FailsByClient.bind`).
-/

namespace DocTable
set_option autoImplicit false

/-- Every failure is the client's. -/
def FailsByClient {α : Type} (x : Except Error α) : Prop :=
  ∀ err, x = .error err → err.isClient = true

namespace FailsByClient

variable {α β : Type} {x : Except Error α}

theorem ok (a : α) : FailsByClient (.ok a) := nofun

theorem error {err : Error} (client : err.isClient = true) :
    FailsByClient (.error err : Except Error α) := by
  rintro _ ⟨⟩
  exact client

theorem bind {f : α → Except Error β} (h : FailsByClient x) (each : ∀ a, FailsByClient (f a)) :
    FailsByClient (x >>= f) := by
  cases x with
  | error err => exact error (h err rfl)
  | ok a => exact each a

theorem map (g : α → β) (h : FailsByClient x) : FailsByClient (x.map g) := by
  cases x with
  | error err => exact error (h err rfl)
  | ok a => exact ok (g a)

theorem mapM {f : α → Except Error β} (each : ∀ a, FailsByClient (f a)) (xs : List α) :
    FailsByClient (xs.mapM f) := by
  induction xs with
  | nil => exact ok []
  | cons x xs ih =>
    rw [List.mapM_cons]
    exact (each x).bind fun _ => ih.bind fun _ => ok _

theorem forM {f : α → Except Error Unit} (each : ∀ a, FailsByClient (f a)) (xs : List α) :
    FailsByClient (xs.forM f) := by
  induction xs with
  | nil => exact ok ()
  | cons x xs ih => exact (each x).bind fun _ => ih

end FailsByClient

end DocTable
