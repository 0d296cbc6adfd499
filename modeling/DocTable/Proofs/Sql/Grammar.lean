import DocTable.Proofs.Predicate.Basic
import DocTable.Proofs.Sql.Token

/-!
# The grammar of conditions

NOT binds tighter than AND, and AND tighter than OR (`Derives`). The grammar gives a
condition at most one reading (`Derives.unique`): a reader that keeps one level for each
open parenthesis finds it (`parse_of_derives`).
-/

namespace DocTable.Sql
set_option autoImplicit false

/-- What a condition is made of. -/
inductive Item where
  | test (p : Predicate Operand)
  | opening
  | closing
  | and
  | or
  | not
  deriving Repr

inductive Category where
  | primary
  | factor
  | term
  | search
  deriving DecidableEq, Repr

/-- A search condition is terms with OR between them, a term is factors with AND between
them, and a factor is a test or a search condition in parentheses, perhaps after NOT. -/
inductive Derives : Category → List Item → Predicate Operand → Prop where
  | test (p : Predicate Operand) : Derives .primary [.test p] p
  | group {is : List Item} {p : Predicate Operand} :
      Derives .search is p → Derives .primary (.opening :: (is ++ [.closing])) p
  | plain {is : List Item} {p : Predicate Operand} :
      Derives .primary is p → Derives .factor is p
  | not {is : List Item} {p : Predicate Operand} :
      Derives .primary is p → Derives .factor (.not :: is) (.not p)
  | factor {is : List Item} {p : Predicate Operand} : Derives .factor is p → Derives .term is p
  | and {is js : List Item} {p q : Predicate Operand} :
      Derives .term is p → Derives .factor js q → Derives .term (is ++ .and :: js) (.all [p, q])
  | term {is : List Item} {p : Predicate Operand} : Derives .term is p → Derives .search is p
  | or {is js : List Item} {p q : Predicate Operand} :
      Derives .search is p → Derives .term js q → Derives .search (is ++ .or :: js) (.any [p, q])

/-! ## A reader -/

/-- What has been read at one level of parentheses. -/
structure Level where
  /-- The condition before the last OR. -/
  alternative : Option (Predicate Operand)
  /-- The term after it, as far as it is complete. -/
  term : Option (Predicate Operand)
  /-- There is a NOT before the next factor. -/
  negated : Bool
  deriving Repr

namespace Level

def empty : Level := ⟨none, none, false⟩

/-- Goes on with a primary. -/
def add (level : Level) (p : Predicate Operand) : Level :=
  let factor := if level.negated then .not p else p
  match level.term with
  | none => ⟨level.alternative, some factor, false⟩
  | some t => ⟨level.alternative, some (.all [t, factor]), false⟩

/-- The condition that the level holds. -/
def close (level : Level) : Option (Predicate Operand) :=
  match level.alternative, level.term with
  | _, none => none
  | none, some t => some t
  | some a, some t => some (.any [a, t])

end Level

/-- Whether a factor has to come or is complete, at a level inside others. -/
inductive State where
  | expecting (level : Level) (enclosing : List Level)
  | complete (level : Level) (enclosing : List Level)
  deriving Repr

def State.next : Item → State → Option State
  | .test p, .expecting level enclosing => some (.complete (level.add p) enclosing)
  | .opening, .expecting level enclosing => some (.expecting .empty (level :: enclosing))
  | .not, .expecting level enclosing =>
    if level.negated then none else some (.expecting { level with negated := true } enclosing)
  | .and, .complete level enclosing => some (.expecting level enclosing)
  | .or, .complete level enclosing => some (.expecting ⟨level.close, none, false⟩ enclosing)
  | .closing, .complete level (outer :: enclosing) =>
    level.close.map fun p => .complete (outer.add p) enclosing
  | _, _ => none

/-- The condition when nothing more comes. -/
def State.result : State → Option (Predicate Operand)
  | .complete level [] => level.close
  | _ => none

def parse : State → List Item → Option (Predicate Operand)
  | state, [] => state.result
  | state, i :: is => (state.next i).bind fun next => parse next is

/-- What reading the items of a category comes to, wherever they stand. -/
def Category.Reads (is : List Item) (p : Predicate Operand) : Category → Prop
  | .primary => ∀ level enclosing more,
      parse (.expecting level enclosing) (is ++ more) =
        parse (.complete (level.add p) enclosing) more
  | .factor => ∀ level enclosing more, level.negated = false →
      parse (.expecting level enclosing) (is ++ more) =
        parse (.complete (level.add p) enclosing) more
  | .term => ∀ alternative enclosing more,
      parse (.expecting ⟨alternative, none, false⟩ enclosing) (is ++ more) =
        parse (.complete ⟨alternative, some p, false⟩ enclosing) more
  | .search => ∃ level : Level, level.close = some p ∧ ∀ enclosing more,
      parse (.expecting .empty enclosing) (is ++ more) = parse (.complete level enclosing) more

theorem reads_of_derives {category : Category} {is : List Item} {p : Predicate Operand}
    (h : Derives category is p) : category.Reads is p := by
  induction h with
  | test p =>
    intro level enclosing more
    rfl
  | group _ ih =>
    obtain ⟨inner, closed, inside⟩ := ih
    intro level enclosing more
    rw [List.cons_append, List.append_assoc]
    show parse (.expecting .empty (level :: enclosing)) _ = _
    rw [inside]
    show (inner.close.map fun p => State.complete (level.add p) enclosing).bind _ = _
    rw [closed]
    rfl
  | plain _ ih => exact fun level enclosing more _ => ih level enclosing more
  | @not is p _ ih =>
    intro level enclosing more notYet
    obtain ⟨alternative, term, negated⟩ := level
    obtain rfl : negated = false := notYet
    show parse (.expecting ⟨alternative, term, true⟩ enclosing) (is ++ more) = _
    rw [ih]
    cases term <;> rfl
  | factor _ ih =>
    intro alternative enclosing more
    exact ih ⟨alternative, none, false⟩ enclosing more rfl
  | @and is js p q _ _ ihTerm ihFactor =>
    intro alternative enclosing more
    rw [List.append_assoc, ihTerm]
    show parse (.expecting ⟨alternative, some p, false⟩ enclosing) (js ++ more) = _
    rw [ihFactor _ _ _ rfl]
    rfl
  | term _ ih => exact ⟨⟨none, some _, false⟩, rfl, fun enclosing more => ih none enclosing more⟩
  | @or is js p q _ _ ihSearch ihTerm =>
    obtain ⟨level, closed, before⟩ := ihSearch
    refine ⟨⟨some p, some q, false⟩, rfl, ?_⟩
    intro enclosing more
    rw [List.append_assoc, before]
    show parse (.expecting ⟨level.close, none, false⟩ enclosing) (js ++ more) = _
    rw [closed, ihTerm]

theorem parse_of_derives {is : List Item} {p : Predicate Operand} (h : Derives .search is p) :
    parse (.expecting .empty []) is = some p := by
  obtain ⟨level, closed, read⟩ := reads_of_derives h
  have all := read [] []
  rw [List.append_nil] at all
  exact all.trans closed

/-- A condition has one reading. -/
theorem Derives.unique {is : List Item} {p q : Predicate Operand} (hp : Derives .search is p)
    (hq : Derives .search is q) : p = q :=
  Option.some.inj ((parse_of_derives hp).symm.trans (parse_of_derives hq))

end DocTable.Sql
