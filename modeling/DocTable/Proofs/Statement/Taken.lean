import DocTable.Clause.Session
import DocTable.Proofs.Statement.Outcome

/-!
# The operands that a draft takes

A draft takes the operands of what it composes (`Draft.Takes`) when its parts do: a value is
neither taken without being written nor written without being taken.
-/

namespace DocTable
set_option autoImplicit false

namespace Draft

variable {α β γ : Type}

/-- A draft that succeeds has taken what its result has for operands. -/
def Takes (operands : α → List SqlValue) (x : Draft α) : Prop :=
  ∀ a, x.outcome = .ok a → x.taken = operands a

namespace Takes

theorem pure {operands : α → List SqlValue} {a : α} (none : operands a = []) :
    Takes operands (pure a) := by
  rintro b ⟨⟩
  exact none.symm

theorem fail {operands : α → List SqlValue} (e : Error) : Takes operands (fail e) := by
  rintro a ⟨⟩

theorem take (v : SqlValue) : Takes (fun w => [w]) (take v) := by
  rintro w ⟨⟩
  rfl

theorem takeFor (f : Field) (v : Json) : Takes (fun w => [w]) (takeFor f v) := by
  intro w ok
  rw [Draft.takeFor] at ok ⊢
  cases coerced : f.coerce v with
  | error cause =>
    rw [coerced] at ok
    cases ok
  | ok value =>
    rw [coerced] at ok
    cases ok
    rfl

/-- A result made of another one. -/
theorem map {operands : α → List SqlValue} {others : β → List SqlValue} {x : Draft α} {g : α → β}
    (takes : Takes operands x) (same : ∀ a, others (g a) = operands a) :
    Takes others (x >>= fun a => Pure.pure (g a)) := by
  intro b ok
  obtain ⟨a, first, rfl⟩ := Draft.ok_return.mp ok
  rw [taken_bind first, taken_pure, List.append_nil, takes a first, same]

theorem mapped {operands : α → List SqlValue} {others : β → List SqlValue} {x : Draft α} {g : α → β}
    (takes : Takes operands x) (same : ∀ a, others (g a) = operands a) :
    Takes others (g <$> x) := by
  rw [map_eq_pure_bind]
  exact takes.map same

/-- A check takes nothing, so nothing may be left of it to take. -/
theorem checked {operands : β → List SqlValue} {check : Except Error α} {g : α → β}
    (none : ∀ a, check = .ok a → operands (g a) = []) : Takes operands (g <$> ofExcept check) := by
  intro b ok
  obtain ⟨a, found, rfl⟩ := Draft.ok_map.mp ok
  rw [taken_map, none a found]
  rfl

/-- A result made of another one, unless there is nothing in that. -/
theorem mapUnless {operands : α → List SqlValue} {others : β → List SqlValue} {x : Draft α}
    {g : α → β} {nothing : α → Prop} [DecidablePred nothing] {e : Error} (takes : Takes operands x)
    (same : ∀ a, others (g a) = operands a) :
    Takes others (x >>= fun a => if nothing a then Draft.fail e else Pure.pure (g a)) := by
  intro b ok
  obtain ⟨a, first, ok⟩ := Draft.ok_bind.mp ok
  by_cases none : nothing a
  · rw [if_pos none] at ok
    cases ok
  · rw [if_neg none] at ok
    obtain rfl := Except.ok.inj ok
    rw [taken_bind first, if_neg none, taken_pure, List.append_nil, takes a first, same]

/-- A result made of two, the second of them composed after the first. -/
theorem both {first : α → List SqlValue} {second : β → List SqlValue}
    {operands : γ → List SqlValue} {x : Draft α} {y : Draft β} {join : α → β → γ}
    (hx : Takes first x) (hy : Takes second y)
    (joined : ∀ a b, operands (join a b) = first a ++ second b) :
    Takes operands (x >>= fun a => y >>= fun b => Pure.pure (join a b)) := by
  intro c ok
  obtain ⟨a, okx, ok⟩ := Draft.ok_bind.mp ok
  obtain ⟨b, oky, rfl⟩ := Draft.ok_return.mp ok
  rw [taken_bind okx, taken_bind oky, taken_pure, List.append_nil, hx a okx, hy b oky, joined]

/-- A result that is composed after a check. -/
theorem after {operands : β → List SqlValue} {check : Except Error α} {g : α → Draft β}
    (takes : ∀ a, Takes operands (g a)) : Takes operands (ofExcept check >>= g) := by
  intro b ok
  obtain ⟨a, checked, ok⟩ := Draft.ok_bind.mp ok
  rw [taken_bind checked, takes a b ok]
  rfl

/-- The results of a list, composed one after the other. -/
theorem mapM {operands : β → List SqlValue} {g : α → Draft β} (each : ∀ x, Takes operands (g x))
    (xs : List α) : Takes (fun ys => ys.flatMap operands) (xs.mapM g) := by
  induction xs with
  | nil => exact .pure rfl
  | cons x xs ih =>
    rw [List.mapM_cons]
    exact .both (each x) ih fun _ _ => rfl

end Takes
end Draft

/-! ## Operands of composed fragments -/

namespace Fragment

theorem operands_append (f g : Fragment) : operands (f ++ g) = operands f ++ operands g := by
  induction f with
  | nil => rfl
  | cons p f ih => cases p <;> simp [operands, ih]

theorem operands_separatedBy (separator : String) (fs : List Fragment) :
    operands (separatedBy separator fs) = fs.flatMap operands :=
  read_separatedBy operands_append rfl fs

theorem operands_commas (fs : List Fragment) : operands (commas fs) = fs.flatMap operands :=
  operands_separatedBy ", " fs

theorem operands_parenthesized (f : Fragment) : operands f.parenthesized = operands f := by
  show operands (f ++ [.word ")"]) = _
  rw [operands_append]
  exact List.append_nil _

end Fragment

/-! ## Sessions -/

namespace Clause.Session

variable {d : Draft Fragment} {f : Fragment}

/-- A session that is told all the operands of a fragment binds those that the fragment's text
has placeholders for. -/
theorem pushAll_taken (s : Session) (takes : d.Takes Fragment.operands)
    (composed : d.outcome = .ok f) : s.pushAll d.taken = ⟨s.style, s.bound ++ f.bound s.style⟩ := by
  rw [takes f composed, pushAll_eq, Fragment.bound_eq_filter]

theorem write_eq (s : Session) (takes : d.Takes Fragment.operands) (composed : d.outcome = .ok f) :
    s.write d = (.ok (f.text s.style s.bound.length), ⟨s.style, s.bound ++ f.bound s.style⟩) := by
  rw [write, s.pushAll_taken takes composed, composed, Except.map]

theorem conclude_eq (s : Session) (takes : d.Takes Fragment.operands) :
    s.conclude d = d.outcome.map fun f =>
      ⟨f.text s.style s.bound.length, s.bound ++ f.bound s.style⟩ := by
  rw [conclude]
  cases composed : d.outcome with
  | error e =>
    rw [write, composed]
    rfl
  | ok f =>
    rw [s.write_eq takes composed]
    rfl

end Clause.Session
end DocTable
