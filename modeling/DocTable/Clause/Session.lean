import DocTable.Statement.Draft

/-!
# Composing clauses one after the other

Clauses of one statement share the values that are bound. A clause adds its own at the end,
also when it fails, and its placeholders are numbered from there.
-/

namespace DocTable.Clause
set_option autoImplicit false

structure Session where
  style : Style
  /-- The values bound so far. -/
  bound : List SqlValue
  deriving DecidableEq, Repr

namespace Session

def start (d : Dialect) (inline : Bool) : Session := ⟨Style.of d inline, []⟩

/-- What stands for a value, and the session after it. A value that is bound comes after those
bound so far, and its placeholder has its number. -/
def push (s : Session) (v : SqlValue) : String × Session :=
  if s.style.binds v then
    (s.style.dialect.placeholder (s.bound.length + 1), { s with bound := s.bound ++ [v] })
  else (s.style.dialect.literal v, s)

/-- The session after values that are pushed in turn. -/
def pushAll (s : Session) (vs : List SqlValue) : Session := vs.foldl (fun s v => (s.push v).2) s

/-- The text of a draft that follows the clauses so far, and the session after it. -/
def write (s : Session) (d : Draft Fragment) : Except Error String × Session :=
  (d.outcome.map (Fragment.text s.style s.bound.length), s.pushAll d.taken)

/-- The same for a clause that may be left out. -/
def add (s : Session) (d : Draft (Option Fragment)) :
    Except Error (Option String) × Session :=
  (d.outcome.map fun f => f.map (Fragment.text s.style s.bound.length), s.pushAll d.taken)

def finish (s : Session) (sql : String) : Statement := ⟨sql, s.bound⟩

/-- The statement whose text is one draft, with what the session has bound by then. -/
def conclude (s : Session) (d : Draft Fragment) : Except Error Statement :=
  let (sql, after) := s.write d
  sql.map after.finish

/-- One push adds at most its value, and only at the end. -/
theorem push_eq (s : Session) (v : SqlValue) :
    s.push v = ((Piece.operand v).text s.style s.bound.length,
      ⟨s.style, s.bound ++ [v].filter s.style.binds⟩) := by
  unfold push Piece.text
  by_cases binds : s.style.binds v = true <;> simp [binds]

/-- Pushes bind the values that the style binds, in their order. -/
theorem pushAll_eq (s : Session) (vs : List SqlValue) :
    s.pushAll vs = ⟨s.style, s.bound ++ vs.filter s.style.binds⟩ := by
  induction vs generalizing s with
  | nil => simp [pushAll]
  | cons v vs ih =>
    calc s.pushAll (v :: vs)
      _ = (s.push v).2.pushAll vs := rfl
      _ = ⟨s.style, s.bound ++ ([v].filter s.style.binds ++ vs.filter s.style.binds)⟩ := by
          rw [ih, push_eq, List.append_assoc]
      _ = ⟨s.style, s.bound ++ (v :: vs).filter s.style.binds⟩ := by
          rw [← List.filter_append, List.singleton_append]

end Session
end DocTable.Clause
