import DocTable.Condition.Basic

/-!
# Predicates on rows

What a row has to meet, as a tree over operands of any kind. A predicate is true,
false or unknown for a row: a comparison with null is unknown, and AND, OR and NOT
take unknown as the value between false and true.
-/

namespace DocTable
set_option autoImplicit false

inductive Truth where
  | no
  | unknown
  | yes
  deriving DecidableEq, Repr

namespace Truth

def ofBool (b : Bool) : Truth := if b then .yes else .no

protected def not : Truth → Truth
  | .no => .yes
  | .unknown => .unknown
  | .yes => .no

protected def and : Truth → Truth → Truth
  | .no, _ | _, .no => .no
  | .unknown, _ | _, .unknown => .unknown
  | .yes, .yes => .yes

protected def or : Truth → Truth → Truth
  | .yes, _ | _, .yes => .yes
  | .unknown, _ | _, .unknown => .unknown
  | .no, .no => .no

def all (ts : List Truth) : Truth := ts.foldr Truth.and .yes

def any (ts : List Truth) : Truth := ts.foldr Truth.or .no

@[simp] theorem all_singleton (t : Truth) : all [t] = t := by
  cases t <;> rfl

@[simp] theorem any_singleton (t : Truth) : any [t] = t := by
  cases t <;> rfl

theorem all_eq_yes_iff {ts : List Truth} : all ts = .yes ↔ ∀ t ∈ ts, t = .yes := by
  induction ts with
  | nil => simp [all]
  | cons t ts ih =>
    rw [List.forall_mem_cons, ← ih]
    show t.and (all ts) = .yes ↔ _
    cases t <;> cases all ts <;> simp [Truth.and]

theorem any_eq_yes_iff {ts : List Truth} : any ts = .yes ↔ .yes ∈ ts := by
  induction ts with
  | nil => simp [any]
  | cons t ts ih =>
    rw [List.mem_cons, ← ih]
    show t.or (any ts) = .yes ↔ _
    cases t <;> cases any ts <;> simp [Truth.or]

theorem any_eq_no_iff {ts : List Truth} : any ts = .no ↔ ∀ t ∈ ts, t = .no := by
  induction ts with
  | nil => simp [any]
  | cons t ts ih =>
    rw [List.forall_mem_cons, ← ih]
    show t.or (any ts) = .no ↔ _
    cases t <;> cases any ts <;> simp [Truth.or]

theorem not_eq_yes_iff {t : Truth} : t.not = .yes ↔ t = .no := by
  cases t <;> simp [Truth.not]

end Truth

/-- How a database compares values none of which is null, and what it reads a numeral as. -/
structure Comparing where
  holds : Comparison → SqlValue → SqlValue → Bool
  /-- Whether a text matches a pattern under an escape character. -/
  isLike : (escape : String) → SqlValue → SqlValue → Bool
  numeral : String → SqlValue

/-- A comparison of two values: unknown when one is null. -/
def Truth.ofValues (test : SqlValue → SqlValue → Bool) (x y : SqlValue) : Truth :=
  if x.isNull || y.isNull then .unknown else .ofBool (test x y)

/-- A predicate on the columns of a row, its operands of type `ω`. -/
inductive Predicate (ω : Type) where
  | isNull (column : String)
  | isNotNull (column : String)
  | compare (column : String) (op : Comparison) (operand : ω)
  | isIn (column : String) (negated : Bool) (operands : List ω)
  | like (column : String) (pattern : ω) (escape : String)
  | never
  | all (parts : List (Predicate ω))
  | any (parts : List (Predicate ω))
  | not (part : Predicate ω)
  deriving Repr

namespace Predicate

variable {ω υ : Type}

mutual
/-- The truth of a predicate for a row, given the values of its operands. -/
def eval (db : Comparing) (row : String → SqlValue) (value : ω → SqlValue) : Predicate ω → Truth
  | .isNull column => .ofBool (row column).isNull
  | .isNotNull column => .ofBool (!(row column).isNull)
  | .compare column op operand => .ofValues (db.holds op) (row column) (value operand)
  | .isIn column negated operands =>
    let among := Truth.any (operands.map fun o => .ofValues (db.holds .equal) (row column) (value o))
    if negated then among.not else among
  | .like column pattern escape => .ofValues (db.isLike escape) (row column) (value pattern)
  | .never => .no
  | .all parts => .all (evals db row value parts)
  | .any parts => .any (evals db row value parts)
  | .not part => (eval db row value part).not

def evals (db : Comparing) (row : String → SqlValue) (value : ω → SqlValue) :
    List (Predicate ω) → List Truth
  | [] => []
  | p :: ps => eval db row value p :: evals db row value ps
end

mutual
/-- The operands from left to right, each with its column. -/
def sites : Predicate ω → List (String × ω)
  | .isNull _ | .isNotNull _ | .never => []
  | .compare column _ operand | .like column operand _ => [(column, operand)]
  | .isIn column _ operands => operands.map fun o => (column, o)
  | .all parts | .any parts => sitesAll parts
  | .not part => sites part

def sitesAll : List (Predicate ω) → List (String × ω)
  | [] => []
  | p :: ps => sites p ++ sitesAll ps
end

mutual
/-- The same predicate over other operands. -/
def map (f : ω → υ) : Predicate ω → Predicate υ
  | .isNull column => .isNull column
  | .isNotNull column => .isNotNull column
  | .compare column op operand => .compare column op (f operand)
  | .isIn column negated operands => .isIn column negated (operands.map f)
  | .like column pattern escape => .like column (f pattern) escape
  | .never => .never
  | .all parts => .all (mapAll f parts)
  | .any parts => .any (mapAll f parts)
  | .not part => .not (map f part)

def mapAll (f : ω → υ) : List (Predicate ω) → List (Predicate υ)
  | [] => []
  | p :: ps => map f p :: mapAll f ps
end

@[simp] theorem sitesAll_append (ps qs : List (Predicate ω)) :
    sitesAll (ps ++ qs) = sitesAll ps ++ sitesAll qs := by
  induction ps with
  | nil => rfl
  | cons p ps ih => simp [sitesAll, ih]

@[simp] theorem mapAll_append (f : ω → υ) (ps qs : List (Predicate ω)) :
    mapAll f (ps ++ qs) = mapAll f ps ++ mapAll f qs := by
  induction ps with
  | nil => rfl
  | cons p ps ih => simp [mapAll, ih]

theorem length_mapAll (f : ω → υ) (ps : List (Predicate ω)) :
    (mapAll f ps).length = ps.length := by
  induction ps with
  | nil => rfl
  | cons p ps ih => simp [mapAll, ih]

mutual
theorem sites_map (f : ω → υ) (p : Predicate ω) :
    (map f p).sites = p.sites.map fun s => (s.1, f s.2) := by
  cases p with
  | isNull column | isNotNull column | never => rfl
  | compare column op operand => rfl
  | isIn column negated operands => simp [map, sites]
  | like column pattern escape => rfl
  | all parts => exact sitesAll_mapAll f parts
  | any parts => exact sitesAll_mapAll f parts
  | not part => exact sites_map f part

theorem sitesAll_mapAll (f : ω → υ) (ps : List (Predicate ω)) :
    sitesAll (mapAll f ps) = (sitesAll ps).map fun s => (s.1, f s.2) := by
  cases ps with
  | nil => rfl
  | cons p ps => simp [mapAll, sitesAll, sites_map f p, sitesAll_mapAll f ps]
end

section Eval

variable {db : Comparing} {row : String → SqlValue} (f : ω → υ) (value : υ → SqlValue)

mutual
theorem eval_map : ∀ p : Predicate ω, (map f p).eval db row value = p.eval db row (value ∘ f)
  | .isNull _ | .isNotNull _ | .compare _ _ _ | .like _ _ _ | .never => rfl
  | .isIn column negated operands => by
    rw [map, eval, eval, List.map_map]
    rfl
  | .all parts => congrArg Truth.all (evals_mapAll parts)
  | .any parts => congrArg Truth.any (evals_mapAll parts)
  | .not part => congrArg Truth.not (eval_map part)

theorem evals_mapAll : ∀ ps : List (Predicate ω),
    evals db row value (mapAll f ps) = evals db row (value ∘ f) ps
  | [] => rfl
  | p :: ps => by rw [mapAll, evals, evals, eval_map p, evals_mapAll ps]
end

end Eval

end Predicate
end DocTable
