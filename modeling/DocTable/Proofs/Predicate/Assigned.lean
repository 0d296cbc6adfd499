import DocTable.Proofs.Predicate.Numbered

/-!
# Placeholders stand for what is bound

A statement is run with the values that it binds, each placeholder standing for the one at its
position. Then a predicate over written operands has the truth of the predicate over the
values, where a value that is not bound counts as what its literal is read as
(`Predicate.truth_number`).
-/

namespace DocTable
set_option autoImplicit false

/-- The placeholders after `before` others stand for some values, one by one. -/
def Assigns (assigned : Nat → SqlValue) : Nat → List SqlValue → Prop
  | _, [] => True
  | before, v :: vs => assigned (before + 1) = v ∧ Assigns assigned (before + 1) vs

theorem assigns_append {assigned : Nat → SqlValue} {before : Nat} {us vs : List SqlValue} :
    Assigns assigned before (us ++ vs) ↔
      Assigns assigned before us ∧ Assigns assigned (before + us.length) vs := by
  induction us generalizing before with
  | nil => simp [Assigns]
  | cons u us ih =>
    simp only [List.cons_append, Assigns, ih, List.length_cons, and_assoc, Nat.add_assoc,
      Nat.add_comm 1]

/-- What a value counts as where it is written: itself when it is bound. -/
def Style.meant (style : Style) (db : Comparing) (v : SqlValue) : SqlValue :=
  if style.binds v then v else (Operand.ofLiteral style.dialect v).value db fun _ => .null

theorem Style.meant_null (style : Style) (db : Comparing) : style.meant db .null = .null := by
  simp [meant, binds, SqlValue.isNull, Operand.ofLiteral, Operand.value]

/-- No literal is a placeholder. -/
theorem Operand.value_ofLiteral (db : Comparing) (d : Dialect) (v : SqlValue)
    (assigned other : Nat → SqlValue) :
    (ofLiteral d v).value db assigned = (ofLiteral d v).value db other := by
  cases v with
  | null | text _ | integer _ => rfl
  | double x =>
    rw [ofLiteral]
    cases x.isFinite <;> rfl
  | boolean b =>
    rw [ofLiteral]
    split
    · rfl
    · split <;> rfl

namespace Predicate

variable {style : Style} {db : Comparing} {row : String → SqlValue} {assigned : Nat → SqlValue}

theorem value_of {before : Nat} {v : SqlValue}
    (assigns : Assigns assigned before ([v].filter style.binds)) :
    (Operand.of style before v).value db assigned = style.meant db v := by
  rw [Operand.of, Style.meant]
  cases binds : style.binds v with
  | true =>
    rw [List.filter_cons, binds] at assigns
    exact assigns.1
  | false => exact Operand.value_ofLiteral db _ v _ _

theorem map_value_numberValues {before : Nat} {vs : List SqlValue}
    (assigns : Assigns assigned before (vs.filter style.binds)) :
    (numberValues style before vs).map (Operand.value db assigned) =
      vs.map (style.meant db) := by
  induction vs generalizing before with
  | nil => rfl
  | cons v vs ih =>
    rw [← List.singleton_append, List.filter_append, assigns_append] at assigns
    rw [numberValues, List.map_cons, List.map_cons, value_of assigns.1, ih assigns.2]

mutual
/-- By recursion on the predicate, its parts binding one after the other. -/
theorem truth_number : ∀ (p : Predicate SqlValue) (before : Nat),
    Assigns assigned before (p.bound style) →
      (p.number style before).truth db row assigned = p.eval db row (style.meant db)
  | .isNull _, _, _ | .isNotNull _, _, _ | .never, _, _ => rfl
  | .compare column op v, before, assigns =>
    congrArg (Truth.ofValues (db.holds op) (row column)) (value_of assigns)
  | .like column pattern escape, before, assigns =>
    congrArg (Truth.ofValues (db.isLike escape) (row column)) (value_of assigns)
  | .isIn column negated vs, before, assigns => by
    have values : vs.filter style.binds = (Predicate.isIn column negated vs).bound style := by
      simp [bound, sites, List.map_map, Function.comp_def]
    rw [← values] at assigns
    have same : (numberValues style before vs).map (Operand.value db assigned) =
        vs.map (style.meant db) := map_value_numberValues assigns
    have truths : ((numberValues style before vs).map fun o =>
          Truth.ofValues (db.holds .equal) (row column) (o.value db assigned)) =
        vs.map fun v => Truth.ofValues (db.holds .equal) (row column) (style.meant db v) := by
      have tests := congrArg (List.map (Truth.ofValues (db.holds .equal) (row column))) same
      rwa [List.map_map, List.map_map] at tests
    rw [number, truth, eval, eval, truths]
  | .all parts, before, assigns => congrArg Truth.all (evals_numberAll parts before assigns)
  | .any parts, before, assigns => congrArg Truth.any (evals_numberAll parts before assigns)
  | .not part, before, assigns => congrArg Truth.not (truth_number part before assigns)

theorem evals_numberAll : ∀ (ps : List (Predicate SqlValue)) (before : Nat),
    Assigns assigned before (((sitesAll ps).map Prod.snd).filter style.binds) →
      evals db row (Operand.value db assigned) (numberAll style before ps) =
        evals db row (style.meant db) ps
  | [], _, _ => rfl
  | p :: ps, before, assigns => by
    rw [sitesAll, List.map_append, List.filter_append, assigns_append] at assigns
    rw [numberAll, evals, evals]
    exact congrArg₂ List.cons (truth_number p before assigns.1)
      (evals_numberAll ps _ assigns.2)
end

end Predicate
end DocTable
