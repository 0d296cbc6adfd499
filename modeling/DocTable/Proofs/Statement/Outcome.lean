import DocTable.Statement.Draft
import Mathlib.Data.List.Forall2

/-!
# Drafts that succeed and drafts that fail

What a composed draft gives is given by its parts: the lemmas take a success
apart, one for each combinator, and a failure is found in the part that fails.
So they do for plain results.
-/

namespace DocTable
set_option autoImplicit false

theorem exists_of_forall₂ {α β : Type} {related : α → β → Prop} {xs : List α} {ys : List β}
    (all : List.Forall₂ related xs ys) {x : α} (mem : x ∈ xs) : ∃ y ∈ ys, related x y := by
  induction all with
  | nil => cases mem
  | cons first _ ih =>
    rcases List.mem_cons.mp mem with rfl | mem
    · exact ⟨_, List.mem_cons_self, first⟩
    · obtain ⟨y, later, here⟩ := ih mem
      exact ⟨y, List.mem_cons_of_mem _ later, here⟩

/-- Items can be related one by one when each of them can. -/
theorem exists_forall₂_iff {α β : Type} {related : α → β → Prop} {xs : List α} :
    (∃ ys, List.Forall₂ related xs ys) ↔ ∀ x ∈ xs, ∃ y, related x y := by
  constructor
  · rintro ⟨ys, all⟩ x mem
    obtain ⟨y, -, here⟩ := exists_of_forall₂ all mem
    exact ⟨y, here⟩
  · intro each
    induction xs with
    | nil => exact ⟨[], .nil⟩
    | cons x xs ih =>
      obtain ⟨⟨y, first⟩, others⟩ := List.forall_mem_cons.mp each
      obtain ⟨ys, rest⟩ := ih others
      exact ⟨y :: ys, .cons first rest⟩

/-- Items that are images of something are the images of a list. -/
theorem forall₂_exists_eq_iff {α β γ : Type} {related : α → γ → Prop} {g : γ → β} {xs : List α}
    {ys : List β} :
    List.Forall₂ (fun x y => ∃ z, related x z ∧ y = g z) xs ys ↔
      ∃ zs, List.Forall₂ related xs zs ∧ ys = zs.map g := by
  constructor
  · intro all
    induction all with
    | nil => exact ⟨[], .nil, rfl⟩
    | cons first _ ih =>
      obtain ⟨z, here, rfl⟩ := first
      obtain ⟨zs, rest, rfl⟩ := ih
      exact ⟨z :: zs, .cons here rest, rfl⟩
  · rintro ⟨zs, all, rfl⟩
    exact List.forall₂_map_right_iff.mpr (all.imp fun _ z here => ⟨z, here, rfl⟩)

namespace Except

variable {ε α β : Type}

theorem ok_bind {x : Except ε α} {g : α → Except ε β} {b : β} :
    (x >>= g) = .ok b ↔ ∃ a, x = .ok a ∧ g a = .ok b := by
  cases x with
  | error e => exact ⟨nofun, nofun⟩
  | ok a => exact ⟨fun h => ⟨a, rfl, h⟩, fun ⟨_, same, h⟩ => Except.ok.inj same ▸ h⟩

theorem ok_mapError {ε' : Type} {x : Except ε α} {g : ε → ε'} {a : α} :
    x.mapError g = .ok a ↔ x = .ok a := by
  cases x <;> simp [Except.mapError]

theorem ok_mapM {g : α → Except ε β} {xs : List α} {ys : List β} :
    xs.mapM g = .ok ys ↔ List.Forall₂ (fun x y => g x = .ok y) xs ys := by
  induction xs generalizing ys with
  | nil => cases ys <;> simp [pure, Except.pure]
  | cons x xs ih =>
    rw [List.mapM_cons]
    constructor
    · intro h
      obtain ⟨y, first, h⟩ := ok_bind.mp h
      obtain ⟨rest, others, h⟩ := ok_bind.mp h
      cases h
      exact .cons first (ih.mp others)
    · intro h
      obtain ⟨y, rest, first, others, rfl⟩ := List.forall₂_cons_left_iff.mp h
      exact ok_bind.mpr ⟨y, first, ok_bind.mpr ⟨rest, ih.mpr others, rfl⟩⟩

theorem exists_of_mapM {g : α → Except ε β} {xs : List α} {ys : List β}
    (ok : xs.mapM g = .ok ys) {x : α} (mem : x ∈ xs) : ∃ y ∈ ys, g x = .ok y :=
  exists_of_forall₂ (ok_mapM.mp ok) mem

theorem forall_of_forM {g : α → Except ε Unit} {xs : List α} (ok : xs.forM g = .ok ()) :
    ∀ x ∈ xs, g x = .ok () := by
  induction xs with
  | nil => exact List.forall_mem_nil _
  | cons x xs ih =>
    obtain ⟨⟨⟩, first, others⟩ := ok_bind.mp ok
    exact List.forall_mem_cons.mpr ⟨first, ih others⟩

theorem forM_eq_ok_iff {g : α → Except ε Unit} {xs : List α} :
    xs.forM g = .ok () ↔ ∀ x ∈ xs, g x = .ok () := by
  refine ⟨forall_of_forM, fun each => ?_⟩
  induction xs with
  | nil => rfl
  | cons x xs ih =>
    obtain ⟨first, others⟩ := List.forall_mem_cons.mp each
    exact ok_bind.mpr ⟨(), first, ih others⟩

/-- Checks fail as one of them does. -/
theorem exists_error_of_forM {g : α → Except ε Unit} {xs : List α} {e : ε}
    (error : xs.forM g = .error e) : ∃ x ∈ xs, g x = .error e := by
  induction xs with
  | nil => cases error
  | cons x xs ih =>
    change (g x >>= fun _ => xs.forM g) = .error e at error
    cases first : g x with
    | error e' =>
      rw [first] at error
      cases error
      exact ⟨x, List.mem_cons_self, first⟩
    | ok =>
      rw [first] at error
      obtain ⟨y, mem, later⟩ := ih error
      exact ⟨y, List.mem_cons_of_mem x mem, later⟩

end Except

namespace Draft

variable {α β : Type}

theorem ok_pure {a b : α} : (pure a : Draft α).outcome = .ok b ↔ a = b := by
  simp

theorem ok_bind {x : Draft α} {g : α → Draft β} {b : β} :
    (x >>= g).outcome = .ok b ↔ ∃ a, x.outcome = .ok a ∧ (g a).outcome = .ok b := by
  rw [outcome_bind]
  cases x.outcome with
  | error e => simp [Except.bind]
  | ok a => simp [Except.bind]

/-- A composed draft that ends with a result. -/
theorem ok_return {x : Draft α} {g : α → β} {b : β} :
    (x >>= fun a => pure (g a)).outcome = .ok b ↔ ∃ a, x.outcome = .ok a ∧ g a = b := by
  rw [ok_bind]
  simp only [ok_pure]

theorem exists_ok_return {x : Draft α} {g : α → β} :
    (∃ b, (x >>= fun a => pure (g a)).outcome = .ok b) ↔ ∃ a, x.outcome = .ok a := by
  simp only [ok_return]
  exact ⟨fun ⟨_, a, ok, _⟩ => ⟨a, ok⟩, fun ⟨a, ok⟩ => ⟨g a, a, ok, rfl⟩⟩

theorem ok_map {x : Draft α} {g : α → β} {b : β} :
    (g <$> x).outcome = .ok b ↔ ∃ a, x.outcome = .ok a ∧ g a = b := by
  rw [outcome_map]
  cases x.outcome with
  | error e => simp [Except.map]
  | ok a => simp [Except.map]

theorem ok_take {v w : SqlValue} : (take v).outcome = .ok w ↔ v = w := by
  simp [take]

theorem ok_takeFor {f : Field} {v : Json} {value : SqlValue} :
    (takeFor f v).outcome = .ok value ↔ f.coerce v = .ok value := by
  rw [takeFor]
  cases f.coerce v with
  | error cause => simp
  | ok w => simp [take]

theorem ok_mapM {g : α → Draft β} {xs : List α} {ys : List β} :
    (xs.mapM g).outcome = .ok ys ↔ List.Forall₂ (fun x y => (g x).outcome = .ok y) xs ys := by
  induction xs generalizing ys with
  | nil => cases ys <;> simp
  | cons x xs ih =>
    rw [List.mapM_cons]
    constructor
    · intro h
      obtain ⟨y, first, h⟩ := ok_bind.mp h
      obtain ⟨rest, others, h⟩ := ok_bind.mp h
      obtain rfl := ok_pure.mp h
      exact .cons first (ih.mp others)
    · intro h
      obtain ⟨y, rest, first, others, rfl⟩ := List.forall₂_cons_left_iff.mp h
      exact ok_bind.mpr ⟨y, first, ok_bind.mpr ⟨rest, ih.mpr others, rfl⟩⟩

/-- A list of which every item composes the part of something. -/
theorem ok_mapM_parts {γ : Type} {g : α → Draft β} {related : α → γ → Prop} {part : γ → β}
    (each : ∀ {x y}, (g x).outcome = .ok y ↔ ∃ z, related x z ∧ y = part z) {xs : List α}
    {ys : List β} :
    (xs.mapM g).outcome = .ok ys ↔ ∃ zs, List.Forall₂ related xs zs ∧ ys = zs.map part := by
  rw [ok_mapM, ← forall₂_exists_eq_iff]
  simp only [each]

theorem exists_of_mapM {g : α → Draft β} {xs : List α} {ys : List β}
    (ok : (xs.mapM g).outcome = .ok ys) {x : α} (mem : x ∈ xs) :
    ∃ y ∈ ys, (g x).outcome = .ok y :=
  exists_of_forall₂ (ok_mapM.mp ok) mem

/-- What every result of a draft has, all results of a list have. -/
theorem forall_of_mapM {g : α → Draft β} {has : β → Prop}
    (each : ∀ {x y}, (g x).outcome = .ok y → has y) {xs : List α} {ys : List β}
    (ok : (xs.mapM g).outcome = .ok ys) : ∀ y ∈ ys, has y := by
  have results := ok_mapM.mp ok
  clear ok
  induction results with
  | nil => simp
  | cons first _ ih => exact List.forall_mem_cons.mpr ⟨each first, ih⟩

/-- What is known of each result before it is composed is known of a list of them. -/
theorem map_of_mapM {γ : Type} {g : α → Draft β} {measure : β → γ} {known : α → γ}
    (each : ∀ {x y}, (g x).outcome = .ok y → measure y = known x) {xs : List α} {ys : List β}
    (ok : (xs.mapM g).outcome = .ok ys) : ys.map measure = xs.map known := by
  have results := ok_mapM.mp ok
  clear ok
  induction results with
  | nil => rfl
  | cons first _ ih => rw [List.map_cons, List.map_cons, each first, ih]

/-! ## Failures -/

theorem error_bind {x : Draft α} {g : α → Draft β} {e : Error} :
    (x >>= g).outcome = .error e ↔
      x.outcome = .error e ∨ ∃ a, x.outcome = .ok a ∧ (g a).outcome = .error e := by
  rw [outcome_bind]
  cases x.outcome with
  | error e' => simp [Except.bind]
  | ok a => simp [Except.bind]

theorem error_return {x : Draft α} {g : α → β} {e : Error} :
    (x >>= fun a => pure (g a)).outcome = .error e ↔ x.outcome = .error e := by
  rw [error_bind]
  simp

/-- A list fails as one of its items does. -/
theorem exists_error_of_mapM {g : α → Draft β} {xs : List α} {e : Error}
    (error : (xs.mapM g).outcome = .error e) : ∃ x ∈ xs, (g x).outcome = .error e := by
  induction xs with
  | nil => cases error
  | cons x xs ih =>
    rw [List.mapM_cons] at error
    rcases error_bind.mp error with first | ⟨y, -, error⟩
    · exact ⟨x, List.mem_cons_self, first⟩
    · obtain ⟨other, mem, later⟩ := ih (error_return.mp error)
      exact ⟨other, List.mem_cons_of_mem x mem, later⟩

theorem error_takeFor {f : Field} {v : Json} {e : Error}
    (error : (takeFor f v).outcome = .error e) : ∃ cause, e = .validation (.coercion cause) := by
  rw [takeFor] at error
  cases coerced : f.coerce v with
  | ok value =>
    rw [coerced] at error
    cases error
  | error cause =>
    rw [coerced] at error
    exact ⟨cause, (Except.error.inj error).symm⟩

end Draft
end DocTable
