import DocTable.Proofs.Predicate.Basic
import DocTable.Proofs.Statement.Tokens

/-!
# Predicates over written operands

The operands of a predicate are numbered from left to right: one that is bound becomes the
placeholder of its position, any other one its literal (`number`). Two predicates are
equivalent when no row and no values of the placeholders tell them apart.
-/

namespace DocTable
set_option autoImplicit false

/-- The value of an operand, given those of the placeholders. -/
def Operand.value (db : Comparing) (assigned : Nat → SqlValue) : Operand → SqlValue
  | .placeholder index => assigned index
  | .null => .null
  | .text s => .text s
  | .numeral s => db.numeral s
  | .truth b => .boolean b

namespace Truth

theorem and_yes (t : Truth) : t.and .yes = t := by
  cases t <;> rfl

theorem or_no (t : Truth) : t.or .no = t := by
  cases t <;> rfl

theorem and_assoc (s t u : Truth) : (s.and t).and u = s.and (t.and u) := by
  cases s <;> cases t <;> cases u <;> rfl

theorem or_assoc (s t u : Truth) : (s.or t).or u = s.or (t.or u) := by
  cases s <;> cases t <;> cases u <;> rfl

end Truth

namespace Predicate

/-- The values of a predicate that are bound. -/
def bound (style : Style) (p : Predicate SqlValue) : List SqlValue :=
  (p.sites.map Prod.snd).filter style.binds

/-- The operands of values when `before` values are bound already. -/
def numberValues (style : Style) : Nat → List SqlValue → List Operand
  | _, [] => []
  | before, v :: vs =>
    .of style before v :: numberValues style (before + ([v].filter style.binds).length) vs

mutual
/-- The predicate over operands as they are written when `before` values are bound already. -/
def number (style : Style) (before : Nat) : Predicate SqlValue → Predicate Operand
  | .isNull column => .isNull column
  | .isNotNull column => .isNotNull column
  | .compare column op v => .compare column op (.of style before v)
  | .isIn column negated vs => .isIn column negated (numberValues style before vs)
  | .like column pattern escape => .like column (.of style before pattern) escape
  | .never => .never
  | .all parts => .all (numberAll style before parts)
  | .any parts => .any (numberAll style before parts)
  | .not part => .not (number style before part)

def numberAll (style : Style) (before : Nat) : List (Predicate SqlValue) → List (Predicate Operand)
  | [] => []
  | p :: ps => number style before p :: numberAll style (before + (p.bound style).length) ps
end

/-- The truth of a predicate for a row and values of the placeholders. -/
def truth (db : Comparing) (row : String → SqlValue) (assigned : Nat → SqlValue)
    (p : Predicate Operand) : Truth :=
  p.eval db row (Operand.value db assigned)

/-- The same truth for every row and all values of the placeholders, whatever the database
makes of comparisons and numerals. -/
def Equivalent (p q : Predicate Operand) : Prop :=
  ∀ db row assigned, p.truth db row assigned = q.truth db row assigned

/-- Predicates that are equivalent one by one. -/
def EquivalentAll : List (Predicate Operand) → List (Predicate Operand) → Prop :=
  List.Forall₂ Equivalent

variable {db : Comparing} {row : String → SqlValue} {assigned : Nat → SqlValue}

/-- Predicates joined two by two, from the left. -/
def foldAll (p : Predicate Operand) (ps : List (Predicate Operand)) : Predicate Operand :=
  ps.foldl (fun p q => .all [p, q]) p

def foldAny (p : Predicate Operand) (ps : List (Predicate Operand)) : Predicate Operand :=
  ps.foldl (fun p q => .any [p, q]) p

theorem evals_eq_map {ω : Type} (value : ω → SqlValue) (ps : List (Predicate ω)) :
    evals db row value ps = ps.map (eval db row value) := by
  induction ps with
  | nil => rfl
  | cons p ps ih => rw [evals, ih, List.map_cons]

theorem truth_all (ps : List (Predicate Operand)) :
    (Predicate.all ps).truth db row assigned = .all (ps.map (truth db row assigned)) :=
  congrArg Truth.all (evals_eq_map (Operand.value db assigned) ps)

theorem truth_any (ps : List (Predicate Operand)) :
    (Predicate.any ps).truth db row assigned = .any (ps.map (truth db row assigned)) :=
  congrArg Truth.any (evals_eq_map (Operand.value db assigned) ps)

theorem truth_all_singleton (p : Predicate Operand) :
    (Predicate.all [p]).truth db row assigned = p.truth db row assigned :=
  (truth_all [p]).trans (Truth.all_singleton _)

theorem truth_any_singleton (p : Predicate Operand) :
    (Predicate.any [p]).truth db row assigned = p.truth db row assigned :=
  (truth_any [p]).trans (Truth.any_singleton _)

/-- Joining from the left comes to the same as from the right. -/
theorem truth_foldl {pair : Predicate Operand → Predicate Operand → Predicate Operand}
    {join : Truth → Truth → Truth} {unit : Truth}
    (pairs : ∀ p q, (pair p q).truth db row assigned =
      join (p.truth db row assigned) (q.truth db row assigned))
    (assoc : ∀ s t u, join (join s t) u = join s (join t u)) (right : ∀ t, join t unit = t)
    (p : Predicate Operand) (ps : List (Predicate Operand)) :
    (ps.foldl pair p).truth db row assigned =
      ((p :: ps).map (truth db row assigned)).foldr join unit := by
  induction ps generalizing p with
  | nil => exact (right _).symm
  | cons q ps ih =>
    rw [List.foldl_cons, ih, List.map_cons, List.foldr_cons, pairs, assoc]
    rfl

theorem truth_foldAll (p : Predicate Operand) (ps : List (Predicate Operand)) :
    (foldAll p ps).truth db row assigned = (Predicate.all (p :: ps)).truth db row assigned := by
  rw [truth_all]
  refine truth_foldl ?_ Truth.and_assoc Truth.and_yes p ps
  intro p q
  rw [truth_all]
  exact congrArg (Truth.and _) (Truth.and_yes _)

theorem truth_foldAny (p : Predicate Operand) (ps : List (Predicate Operand)) :
    (foldAny p ps).truth db row assigned = (Predicate.any (p :: ps)).truth db row assigned := by
  rw [truth_any]
  refine truth_foldl ?_ Truth.or_assoc Truth.or_no p ps
  intro p q
  rw [truth_any]
  exact congrArg (Truth.or _) (Truth.or_no _)

theorem EquivalentAll.map_truth {ps qs : List (Predicate Operand)} (h : EquivalentAll ps qs) :
    ps.map (truth db row assigned) = qs.map (truth db row assigned) := by
  induction h with
  | nil => rfl
  | cons first _ ih => rw [List.map_cons, List.map_cons, ih, first db row assigned]

theorem EquivalentAll.all {ps qs : List (Predicate Operand)} (h : EquivalentAll ps qs) :
    Equivalent (.all ps) (.all qs) := by
  intro db row assigned
  rw [truth_all, truth_all, h.map_truth]

theorem EquivalentAll.any {ps qs : List (Predicate Operand)} (h : EquivalentAll ps qs) :
    Equivalent (.any ps) (.any qs) := by
  intro db row assigned
  rw [truth_any, truth_any, h.map_truth]

theorem Equivalent.not {p q : Predicate Operand} (h : Equivalent p q) :
    Equivalent (.not p) (.not q) :=
  fun db row assigned => congrArg Truth.not (h db row assigned)

theorem Equivalent.trans {p q r : Predicate Operand} (hp : Equivalent p q)
    (hq : Equivalent q r) : Equivalent p r :=
  fun db row assigned => (hp db row assigned).trans (hq db row assigned)

end Predicate
end DocTable
