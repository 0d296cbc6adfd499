import DocTable.Clause.Session
import DocTable.Proofs.Statement.Taken

/-!
# Parts of a text, one after the other

The parts of a list are written one after the other, each told how many values are bound
before it (`inTurn`). A list of fragments is written so (`Fragment.text_separatedBy`), and what
a session adds for a clause is its fragment, written and bound (`Clause.Session.add_some_iff`).
A fragment that binds nothing is written alike wherever it stands (`Fragment.Fixed`).
-/

namespace DocTable
set_option autoImplicit false

/-- A value as it is written when `before` values are bound already: its placeholder, or its
literal. Null has no placeholder. -/
def Style.operandText (style : Style) (before : Nat) : SqlValue → String
  | .null => "NULL"
  | v => if style.inline then style.dialect.literal v else style.dialect.placeholder (before + 1)

theorem Piece.text_operand (style : Style) (before : Nat) (v : SqlValue) :
    (operand v).text style before = style.operandText before v := by
  rw [text, Style.binds]
  cases v <;> cases inline : style.inline <;> simp [Style.operandText, SqlValue.isNull, inline,
    Dialect.literal]

section InTurn

variable {α : Type} (bound : α → List SqlValue) (write : Nat → α → String)

/-- Items written one after the other: each is told how many values are bound before it. -/
def inTurn : Nat → List α → List String
  | _, [] => []
  | before, x :: xs => write before x :: inTurn (before + (bound x).length) xs

/-- Items without placeholders are written alike wherever they stand. -/
theorem inTurn_eq_map {text : α → String} (same : ∀ before x, write before x = text x)
    (before : Nat) (xs : List α) :
    inTurn bound write before xs = xs.map text := by
  induction xs generalizing before with
  | nil => rfl
  | cons x xs ih => rw [inTurn, same, ih, List.map_cons]

/-- Items that bind one value each are told how many items there are before them. -/
theorem inTurn_eq_mapIdx (one : ∀ x, (bound x).length = 1) (before : Nat) (xs : List α) :
    inTurn bound write before xs = xs.mapIdx fun k x => write (before + k) x := by
  induction xs generalizing before with
  | nil => rfl
  | cons x xs ih =>
    simp only [inTurn, ih, one, List.mapIdx_cons, Nat.add_zero, Nat.add_assoc, Nat.add_comm 1]

end InTurn

namespace Fragment

variable {style : Style}

theorem text_word (s : String) (before : Nat) : text style before [.word s] = s :=
  String.append_empty

theorem text_parenthesized (f : Fragment) (before : Nat) :
    text style before f.parenthesized = "(" ++ text style before f ++ ")" := by
  show "(" ++ text style before (f ++ [.word ")"]) = _
  rw [text_append, text_word, String.append_assoc]

/-- Fragments are written in turn, the separator between each two. -/
theorem text_separatedBy {α : Type} {part : α → Fragment} {bound : α → List SqlValue}
    {write : Nat → α → String} (binds : ∀ x, (part x).bound style = bound x)
    (writes : ∀ before x, (part x).text style before = write before x) (separator : String)
    (before : Nat) (xs : List α) :
    text style before (separatedBy separator (xs.map part)) =
      separator.intercalate (inTurn bound write before xs) := by
  induction xs generalizing before with
  | nil => simp [separatedBy, text, inTurn]
  | cons x xs ih =>
    cases xs with
    | nil => simp [separatedBy, inTurn, writes]
    | cons y ys =>
      have rest := ih (before + (bound x).length)
      calc
        text style before (part x ++ .word separator :: separatedBy separator ((y :: ys).map part))
        _ = write before x ++ (separator ++ text style (before + (bound x).length)
              (separatedBy separator ((y :: ys).map part))) := by
            rw [text_append, writes, binds]
            rfl
        _ = write before x ++ separator ++
              separator.intercalate (inTurn bound write (before + (bound x).length) (y :: ys)) := by
            rw [rest, String.append_assoc]
        _ = separator.intercalate (inTurn bound write before (x :: y :: ys)) :=
            String.intercalate_cons_cons.symm

theorem bound_append (f g : Fragment) : bound style (f ++ g) = bound style f ++ bound style g :=
  List.flatMap_append

/-- A fragment that is written alike wherever it stands, and binds nothing. -/
structure Fixed (style : Style) (f : Fragment) (s : String) : Prop where
  text : ∀ before, f.text style before = s
  bound : f.bound style = []

namespace Fixed

variable {f g : Fragment} {s u : String}

theorem nil : Fixed style [] "" := ⟨fun _ => rfl, rfl⟩

theorem word (s : String) : Fixed style [.word s] s := ⟨text_word s, rfl⟩

theorem column (key : String) : Fixed style [.column key] (style.dialect.quoteName key) :=
  ⟨fun _ => String.append_empty, rfl⟩

theorem table (name : String) : Fixed style [.table name] (style.dialect.quoteTable name) :=
  ⟨fun _ => String.append_empty, rfl⟩

theorem append (hf : Fixed style f s) (hg : Fixed style g u) : Fixed style (f ++ g) (s ++ u) := by
  constructor
  · intro before
    rw [text_append, hf.text, hg.text]
  · rw [bound_append, hf.bound, hg.bound, List.append_nil]

theorem commas {α : Type} {part : α → Fragment} {write : α → String}
    (each : ∀ x, Fixed style (part x) (write x)) (xs : List α) :
    Fixed style (Fragment.commas (xs.map part)) (", ".intercalate (xs.map write)) := by
  constructor
  · intro before
    rw [Fragment.commas, text_separatedBy (fun x => (each x).bound) (fun _ x => (each x).text _)]
    exact congrArg _ (inTurn_eq_map _ (fun _ => write) (fun _ _ => rfl) before xs)
  · rw [Fragment.commas, read_separatedBy bound_append rfl, List.flatMap_map]
    exact List.flatMap_eq_nil_iff.mpr fun x _ => (each x).bound

/-- Around what binds values, fixed fragments are written as they are. -/
theorem statement_around (front : Fixed style f s) (back : Fixed style g u) (h : Fragment) :
    (f ++ h ++ g).statement style = ⟨s ++ h.text style 0 ++ u, h.bound style⟩ := by
  rw [statement, text_append, text_append, front.text, back.text, front.bound, bound_append,
    bound_append, front.bound, back.bound, List.append_nil]
  rfl

end Fixed
end Fragment

namespace Clause.Session

/-- A clause that always has a text is its fragment, written after what the session has bound;
the session then binds the values of the fragment as well. -/
theorem add_some_iff {s after : Session} {d : Draft Fragment} (takes : d.Takes Fragment.operands)
    {sql : String} :
    s.add (some <$> d) = (.ok (some sql), after) ↔
      ∃ f, d.outcome = .ok f ∧ f.text s.style s.bound.length = sql ∧
        after = ⟨s.style, s.bound ++ f.bound s.style⟩ := by
  rw [add, Draft.outcome_map, Draft.taken_map]
  cases composed : d.outcome with
  | error e => simp [Except.map]
  | ok f =>
    rw [s.pushAll_taken takes composed]
    simp [Except.map, eq_comm]

theorem exists_add_some_iff {s : Session} {d : Draft Fragment} (takes : d.Takes Fragment.operands) :
    (∃ sql after, s.add (some <$> d) = (.ok (some sql), after)) ↔ ∃ f, d.outcome = .ok f := by
  simp only [add_some_iff takes]
  constructor
  · rintro ⟨_, _, f, ok, -⟩
    exact ⟨f, ok⟩
  · rintro ⟨f, ok⟩
    exact ⟨_, _, f, ok, rfl, rfl⟩

/-- A clause that always has a text fails as its fragment does. -/
theorem add_some_error_iff {s : Session} {d : Draft Fragment} {e : Error} :
    (s.add (some <$> d)).1 = .error e ↔ d.outcome = .error e := by
  rw [add, Draft.outcome_map]
  cases d.outcome <;> simp [Except.map]

end Clause.Session
end DocTable
