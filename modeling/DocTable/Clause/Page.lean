import DocTable.Bounds
import DocTable.Dialect.Basic

/-!
# Pages

A page is a window of rows: so many, after so many. Count and page come from
clients; what is not positive counts as absent. An offset beyond 64 bits is cut
there, past every row there can be.
-/

namespace DocTable.Clause
set_option autoImplicit false

structure Window where
  limit : Nat
  offset : Nat
  deriving DecidableEq, Repr

/-- The page size when none is configured. -/
def defaultCount : Int := 30

/-- The count that asks for every row. -/
def unlimited : Int := -1

/-- A number that is given and positive, or else another. -/
def positiveOr (given : Option Int) (other : Int) : Int :=
  match given with
  | some n => if 0 < n then n else other
  | none => other

/-- The rows that a count and a page ask for; none for all of them. -/
def window? (count page : Option Int) (configured : Int) : Option Window :=
  if count = some unlimited then none
  else
    let limit := (positiveOr count (positiveOr (some configured) defaultCount)).toNat
    let number := (positiveOr page 1).toNat
    some ⟨limit, min ((number - 1) * limit) Bounds.maxUInt64⟩

def Window.text (d : Dialect) (w : Window) : String := d.pageText w.limit w.offset

end DocTable.Clause
