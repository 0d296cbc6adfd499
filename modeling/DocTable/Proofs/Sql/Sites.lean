import DocTable.Proofs.Dialect.Unquoting
import DocTable.Proofs.Sql.Written

/-!
# Where placeholders stand

The text of a statement is read for its placeholders, each with the column that its
value goes to (`sites`). In an insertion that is the column at the cell's place in the
column list; everywhere else it is the name that was read last.
-/

namespace DocTable.Sql
set_option autoImplicit false

def Lexeme.text (l : Lexeme) : String := String.ofList l.chars

/-- The name that a lexeme quotes. -/
def Lexeme.name? (d : Dialect) (l : Lexeme) : Option String :=
  if l.mode = .nameEnd then d.unquoteNameChars? l.chars else none

/-- The placeholders of a text, from left to right. Inside quotes there are none. -/
def placeholders (d : Dialect) (sql : String) : List String :=
  ((lexemes d sql.toList).filter fun l => l.mode = .placeholder).map Lexeme.text

def opening : Lexeme := ⟨.symbol, ['(']⟩

def closing : Lexeme := ⟨.symbol, [')']⟩

def comma : Lexeme := ⟨.symbol, [',']⟩

/-- Where a reader of columns stands. -/
inductive Place where
  /-- After a name. -/
  | beside (column : String)
  /-- In an insertion before its column list. -/
  | target
  /-- In the column list, after some names. -/
  | columns (names : List String)
  /-- In a row's cell, under a column list. -/
  | row (names : List String) (cell : Nat)
  deriving DecidableEq, Repr

namespace Place

/-- The column that a value goes to. -/
def column : Place → String
  | .beside column => column
  | .target | .columns _ => ""
  | .row names cell => names.getD cell ""

def next (d : Dialect) (l : Lexeme) : Place → Place
  | .beside column => .beside ((l.name? d).getD column)
  | .target => if l = opening then .columns [] else .target
  | .columns names =>
    if l = closing then .row names 0 else .columns (names ++ (l.name? d).toList)
  | .row names cell =>
    if l = opening then .row names 0
    else if l = comma then .row names (cell + 1)
    else .row names cell

/-- The place after some lexemes. -/
def after (d : Dialect) (place : Place) (ls : List Lexeme) : Place :=
  ls.foldl (fun place l => place.next d l) place

/-- The place before a statement. -/
def first (ls : List Lexeme) : Place :=
  if ls.head? = some ⟨.word, "INSERT".toList⟩ then .target else .beside ""

end Place

/-- The placeholders after a place, each with its column. -/
def sitesFrom (d : Dialect) : Place → List Lexeme → List (String × String)
  | _, [] => []
  | place, l :: ls =>
    (if l.mode = .placeholder then [(place.column, l.text)] else []) ++
      sitesFrom d (place.next d l) ls

/-- The placeholders of a statement, from left to right, each with its column. -/
def sites (d : Dialect) (sql : String) : List (String × String) :=
  sitesFrom d (Place.first (lexemes d sql.toList)) (lexemes d sql.toList)

theorem map_snd_sitesFrom (d : Dialect) (place : Place) (ls : List Lexeme) :
    (sitesFrom d place ls).map Prod.snd =
      (ls.filter fun l => l.mode = .placeholder).map Lexeme.text := by
  induction ls generalizing place with
  | nil => rfl
  | cons l ls ih =>
    rw [sitesFrom, List.map_append, ih]
    by_cases h : l.mode = .placeholder <;> simp [h]

/-- Sites are read for all placeholders, and for nothing else. -/
theorem map_snd_sites (d : Dialect) (sql : String) :
    (sites d sql).map Prod.snd = placeholders d sql :=
  map_snd_sitesFrom d _ _

theorem sitesFrom_append (d : Dialect) (place : Place) (ls more : List Lexeme) :
    sitesFrom d place (ls ++ more) =
      sitesFrom d place ls ++ sitesFrom d (place.after d ls) more := by
  induction ls generalizing place with
  | nil => rfl
  | cons l ls ih => simp [sitesFrom, Place.after, ih]

/-! ## What a place passes over -/

theorem sitesFrom_of_forall {d : Dialect} {ls : List Lexeme}
    (none : ∀ l ∈ ls, l.mode ≠ .placeholder) (place : Place) : sitesFrom d place ls = [] := by
  induction ls generalizing place with
  | nil => rfl
  | cons l ls ih =>
    have here := none l List.mem_cons_self
    have rest := ih (fun m hm => none m (List.mem_cons_of_mem l hm)) (place.next d l)
    simp [sitesFrom, here, rest]

theorem Lexeme.name?_of_ne (d : Dialect) {l : Lexeme} (h : l.mode ≠ .nameEnd) :
    l.name? d = none := by
  simp [name?, h]

theorem Lexeme.name?_nameLexeme (d : Dialect) (name : String) :
    (nameLexeme d name).name? d = some name := by
  simp [name?, nameLexeme, Dialect.unquoteNameChars?_quoteNameChars]

namespace Place

/-- A value leaves every place as it is. -/
theorem next_value (d : Dialect) (place : Place) {l : Lexeme} (notName : l.mode ≠ .nameEnd)
    (notSymbol : l.mode ≠ .symbol) : place.next d l = place := by
  have noName := Lexeme.name?_of_ne d notName
  have symbols : l ≠ opening ∧ l ≠ closing ∧ l ≠ comma := by
    refine ⟨?_, ?_, ?_⟩ <;> rintro rfl <;> exact notSymbol rfl
  cases place <;> simp [next, noName, symbols]

/-- Beside a name, only another name counts. -/
theorem after_beside {d : Dialect} {ls : List Lexeme} (none : ∀ l ∈ ls, l.mode ≠ .nameEnd)
    (column : String) : (beside column).after d ls = .beside column := by
  induction ls with
  | nil => rfl
  | cons l ls ih =>
    have here := Lexeme.name?_of_ne d (none l List.mem_cons_self)
    have rest := ih fun m hm => none m (List.mem_cons_of_mem l hm)
    show ((beside column).next d l).after d ls = .beside column
    rw [next, here]
    exact rest

end Place
end DocTable.Sql
