import DocTable.Proofs.Condition.Compiled
import DocTable.Proofs.Statement.Sited

/-!
# The operands of a condition

Every condition is written as a well spaced fragment whose operands stand beside their
columns (`sited_fragment`), in the order of the predicate that it states
(`sites_condition`).
-/

namespace DocTable
set_option autoImplicit false

namespace Condition

mutual
/-- The operands from left to right, each with its column. -/
def sites : Condition → List (String × SqlValue)
  | .isNull _ | .isNotNull _ | .never => []
  | .compare column _ v | .like column v => [(column, v)]
  | .isIn column _ vs => vs.map fun v => (column, v)
  | .all parts | .any parts | .not parts => (sitesEach parts).flatten

def sitesEach : List Condition → List (List (String × SqlValue))
  | [] => []
  | c :: cs => sites c :: sitesEach cs
end

section Fragment

variable (b : Backend)

theorem spaced_test (column : String) {s : String} (plain : (Piece.word s).isPlain = true)
    (starts : (Piece.word s).startsApart = true) :
    Fragment.WellSpaced [.column column, .word s] :=
  .append_word (f := [.column column]) (.single rfl) starts (.single plain)

theorem sited_compare (column : String) (op : Comparison) (v : SqlValue) :
    (fragment (.compare column op v)).Sited b [(column, v)] := by
  cases op <;> exact .operand (by decide) column v

theorem sited_isIn (column : String) (negated : Bool) (vs : List SqlValue) :
    (fragment (.isIn column negated vs)).Sited b (vs.map fun v => (column, v)) := by
  cases negated <;> exact Fragment.sited_list (by decide) column vs

theorem sited_like (column : String) (pattern : SqlValue) :
    (fragment (.like column pattern)).Sited b [(column, pattern)] := by
  have escape : Fragment.Sited b [.word " ESCAPE ", .constant (.text likeEscape)] [] :=
    .of_no_operands (.word_cons (by decide) (by decide) (.single rfl)) rfl
  have matched : Fragment.Sited b [.column column, .word " LIKE ", .operand pattern]
      [(column, pattern)] := .operand (by decide) column pattern
  exact matched.append_word (by decide) escape

mutual
theorem sited_fragment : ∀ c : Condition, (fragment c).Sited b c.sites
  | .isNull column | .isNotNull column =>
    .of_no_operands (spaced_test column (by decide) (by decide)) rfl
  | .compare column op v => sited_compare b column op v
  | .isIn column negated vs => sited_isIn b column negated vs
  | .like column pattern => sited_like b column pattern
  | .never => .of_no_operands (.single (by decide)) rfl
  | .all parts | .any parts =>
    .parenthesized (.separatedBy (by decide) (sited_fragments parts))
  | .not parts =>
    .word_cons (by decide) (by decide)
      (.parenthesized (.separatedBy (by decide) (sited_fragments parts)))

theorem sited_fragments :
    ∀ cs : List Condition, List.Forall₂ (Fragment.Sited b) (fragments cs) (sitesEach cs)
  | [] => .nil
  | c :: cs => .cons (sited_fragment c) (sited_fragments cs)
end

/-- Conditions side by side. -/
theorem sited_conjunction (cs : List Condition) :
    (Fragment.separatedBy " AND " (fragments cs)).Sited b (sitesEach cs).flatten :=
  .separatedBy (by decide) (sited_fragments b cs)

end Fragment

theorem spaced_separatedBy {separator : String} (separates : Piece.separates separator = true)
    (cs : List Condition) : (Fragment.separatedBy separator (fragments cs)).WellSpaced :=
  (Fragment.Sited.separatedBy separates (sited_fragments .mysql cs)).spaced

theorem sites_joined {join : List Condition → Condition}
    (operands : ∀ cs, (join cs).sites = (sitesEach cs).flatten) (cs : List Condition) :
    (joined join cs).sites = (sitesEach cs).flatten := by
  unfold joined
  split
  · simp [sitesEach]
  · exact operands cs

end Condition

namespace Predicate

mutual
theorem sites_condition (p : Predicate SqlValue) : (condition p).sites = p.sites := by
  cases p with
  | isNull _ | isNotNull _ | never | compare _ _ _ | like _ _ _ => rfl
  | isIn column negated vs =>
    rw [condition]
    cases vs <;> rfl
  | all parts =>
    rw [condition, Condition.sites_joined fun _ => rfl]
    exact flatten_sitesEach parts
  | any parts =>
    rw [condition, Condition.sites_joined fun _ => rfl]
    exact flatten_sitesEach parts
  | not part =>
    cases part with
    | all parts => exact flatten_sitesEach parts
    | _ =>
      rw [condition, Condition.sites, Condition.sitesEach, Condition.sitesEach, sites_condition]
      · simp [sites]
      · nofun

theorem flatten_sitesEach (ps : List (Predicate SqlValue)) :
    (Condition.sitesEach (conditions ps)).flatten = sitesAll ps := by
  cases ps with
  | nil => rfl
  | cons p ps =>
    rw [conditions, Condition.sitesEach, List.flatten_cons, sites_condition p,
      flatten_sitesEach ps, sitesAll]
end

end Predicate

/-- The operands of compiled conditions are the given values. -/
theorem Compiled.flatten_sitesEach {ps : List (Predicate Given)} {cs : List Condition}
    (h : Compiled ps cs) :
    (Condition.sitesEach cs).flatten =
      ((Predicate.sitesAll ps).map Prod.snd).map fun g => (g.field.key, g.typed) := by
  rw [h.conditions, Predicate.flatten_sitesEach, Predicate.sitesAll_mapAll, List.map_map]
  apply List.map_congr_left
  intro s hs
  rw [(h.sites s hs).1]
  rfl

end DocTable
