import DocTable.Statement.Draft

/-!
# Narrowing

An outcome narrows another one when it is the same, or when it refuses an unknown name
instead. What is composed of drafts that narrow others narrows what is composed of those
(`Draft.Narrows.bind`), whatever they have taken until then.
-/

namespace DocTable
set_option autoImplicit false

/-- The outcome is the other one, or it refuses a name. -/
def Narrows {α : Type} (strict lenient : Except Error α) : Prop :=
  strict = lenient ∨ ∃ name, strict = .error (.unknownField name)

/-- Results are only taken away: what is left is unchanged, and what takes a result away or
comes before another failure is the refusal of a name. -/
structure OnlyRemoves {α : Type} (strict lenient : Except Error α) : Prop where
  result : ∀ a, strict = .ok a → lenient = .ok a
  removed : ∀ a e, lenient = .ok a → strict = .error e → ∃ name, e = .unknownField name
  failure : ∀ e, lenient = .error e →
    strict = .error e ∨ ∃ name, strict = .error (.unknownField name)

namespace Narrows

variable {α β : Type} {x y : Except Error α}

theorem refl (x : Except Error α) : Narrows x x := .inl rfl

theorem refused (name : String) (y : Except Error α) :
    Narrows (.error (.unknownField name)) y := .inr ⟨name, rfl⟩

theorem bind {f g : α → Except Error β} (h : Narrows x y) (each : ∀ a, Narrows (f a) (g a)) :
    Narrows (x >>= f) (y >>= g) := by
  rcases h with rfl | ⟨name, rfl⟩
  · cases x with
    | error e => exact .refl _
    | ok a => exact each a
  · exact .refused name _

theorem map (g : α → β) (h : Narrows x y) : Narrows (x.map g) (y.map g) := by
  rcases h with rfl | ⟨name, rfl⟩
  · exact .refl _
  · exact .refused name _

theorem mapM {f g : α → Except Error β} (each : ∀ a, Narrows (f a) (g a)) (xs : List α) :
    Narrows (xs.mapM f) (xs.mapM g) := by
  induction xs with
  | nil => exact .refl _
  | cons x xs ih =>
    rw [List.mapM_cons, List.mapM_cons]
    exact (each x).bind fun _ => ih.bind fun _ => .refl _

theorem forM {f g : α → Except Error Unit} (each : ∀ a, Narrows (f a) (g a)) (xs : List α) :
    Narrows (xs.forM f) (xs.forM g) := by
  induction xs with
  | nil => exact .refl _
  | cons x xs ih => exact (each x).bind fun _ => ih

theorem onlyRemoves (h : Narrows x y) : OnlyRemoves x y := by
  rcases h with rfl | ⟨name, rfl⟩
  · refine ⟨fun _ ok => ok, fun a e ok failed => ?_, fun _ failed => .inl failed⟩
    cases ok.symm.trans failed
  · refine ⟨nofun, ?_, fun _ _ => .inr ⟨name, rfl⟩⟩
    rintro a e _ ⟨⟩
    exact ⟨name, rfl⟩

end Narrows

namespace Draft

/-- The draft is the other one, with the same operands taken, or it refuses a name. -/
def Narrows {α : Type} (strict lenient : Draft α) : Prop :=
  strict = lenient ∨ ∃ name, strict.outcome = .error (.unknownField name)

namespace Narrows

variable {α β : Type} {x y : Draft α}

theorem refl (x : Draft α) : Narrows x x := .inl rfl

theorem outcome (h : Narrows x y) : DocTable.Narrows x.outcome y.outcome := by
  rcases h with rfl | refused
  · exact .refl _
  · exact .inr refused

theorem ofExcept {a b : Except Error α} (h : DocTable.Narrows a b) :
    Narrows (ofExcept a) (ofExcept b) := by
  rcases h with rfl | ⟨name, rfl⟩
  · exact .refl _
  · exact .inr ⟨name, rfl⟩

/-- What the strict draft has taken before it refuses does not count. -/
theorem bind {f g : α → Draft β} (h : Narrows x y) (each : ∀ a, Narrows (f a) (g a)) :
    Narrows (x >>= f) (y >>= g) := by
  rcases h with rfl | ⟨name, refused⟩
  · rcases x with ⟨taken, e | a⟩
    · exact .refl _
    · rcases each a with same | ⟨name, refused⟩
      · refine .inl ?_
        show Draft.mk (taken ++ (f a).taken) (f a).outcome =
          Draft.mk (taken ++ (g a).taken) (g a).outcome
        rw [same]
      · exact .inr ⟨name, refused⟩
  · refine .inr ⟨name, ?_⟩
    rw [outcome_bind, refused]
    rfl

theorem map (g : α → β) (h : Narrows x y) : Narrows (g <$> x) (g <$> y) := by
  rw [map_eq_pure_bind, map_eq_pure_bind]
  exact h.bind fun _ => .refl _

theorem mapM {f g : α → Draft β} (each : ∀ a, Narrows (f a) (g a)) (xs : List α) :
    Narrows (xs.mapM f) (xs.mapM g) := by
  induction xs with
  | nil => exact .refl _
  | cons x xs ih =>
    rw [List.mapM_cons, List.mapM_cons]
    exact (each x).bind fun _ => ih.bind fun _ => .refl _

end Narrows
end Draft
end DocTable
