import DocTable.Proofs.Coercion.Kept
import DocTable.Proofs.Condition.Compiled
import DocTable.Proofs.Statement.Masked
import DocTable.Proofs.Statement.Sited

/-!
# Conditions without their values

A value is null in the type of its field exactly when it is null in the request
(`Given.masked_typed`), so the conditions of an accepted filter, once masked, depend on its
predicates only up to the values that are not null (`Compiled.masked_fragments`).
-/

namespace DocTable
set_option autoImplicit false

/-! ## Given values -/

/-- Only null is null in a column, and it is so in every column. -/
theorem Field.isNull_of_coerce {f : Field} {v : Json} {value : SqlValue}
    (ok : f.coerce v = .ok value) : value.isNull = v.isNull := by
  rw [Bool.eq_iff_iff, SqlValue.isNull_iff, ColumnType.eq_null_iff ok]
  cases v <;> simp [Json.isNull]

/-- A value of a request as it is masked in any column. -/
def Json.masked (v : Json) : SqlValue := if v.isNull then .null else .text ""

theorem SqlValue.masked_eq_of_isNull {value : SqlValue} {v : Json}
    (same : value.isNull = v.isNull) : value.masked = v.masked := by
  rw [Json.masked, ← same]
  cases value <;> rfl

theorem Field.masked_of_coerce {f : Field} {v : Json} {value : SqlValue}
    (ok : f.coerce v = .ok value) : value.masked = v.masked :=
  SqlValue.masked_eq_of_isNull (isNull_of_coerce ok)

namespace Given

def masked (g : Given) : SqlValue := g.value.masked

theorem masked_typed {g : Given} (fits : g.Fits) : g.typed.masked = g.masked :=
  Field.masked_of_coerce fits

end Given

/-! ## Predicates -/

namespace Predicate

mutual
theorem map_map_of_sites {ω υ φ : Type} {f : ω → υ} {g : υ → φ} {h : ω → φ} :
    ∀ p : Predicate ω, (∀ s ∈ p.sites, g (f s.2) = h s.2) → (p.map f).map g = p.map h
  | .isNull _, _ | .isNotNull _, _ | .never, _ => rfl
  | .compare column op operand, same => congrArg (compare column op) (same _ List.mem_cons_self)
  | .isIn column negated operands, same => by
    simp only [map, List.map_map]
    congr 1
    apply List.map_congr_left
    intro o mem
    exact same (column, o) (List.mem_map_of_mem mem)
  | .like column pattern escape, same => by
    simp only [map]
    rw [same (column, pattern) List.mem_cons_self]
  | .all parts, same => congrArg all (mapAll_mapAll_of_sites parts same)
  | .any parts, same => congrArg any (mapAll_mapAll_of_sites parts same)
  | .not part, same => congrArg not (map_map_of_sites part same)

theorem mapAll_mapAll_of_sites {ω υ φ : Type} {f : ω → υ} {g : υ → φ} {h : ω → φ} :
    ∀ ps : List (Predicate ω), (∀ s ∈ sitesAll ps, g (f s.2) = h s.2) →
      mapAll g (mapAll f ps) = mapAll h ps
  | [], _ => rfl
  | p :: ps, same => by
    rw [sitesAll] at same
    rw [mapAll, mapAll, mapAll, map_map_of_sites p, mapAll_mapAll_of_sites ps]
    · intro s mem
      exact same s (List.mem_append_right _ mem)
    · intro s mem
      exact same s (List.mem_append_left _ mem)
end

end Predicate

/-! ## Fragments -/

/-- Fragments as one, where a single one stands for itself. -/
def Fragment.joined (separator : String) : List Fragment → Fragment
  | [f] => f
  | fs => parenthesized (separatedBy separator fs)

theorem Fragment.masked_joined (separator : String) (fs : List Fragment) :
    masked (joined separator fs) = joined separator (fs.map masked) := by
  cases fs with
  | nil => rfl
  | cons f fs =>
    cases fs with
    | nil => rfl
    | cons g gs => exact (masked_parenthesized _).trans (congrArg _ (masked_separatedBy _ _))

/-- A list of values is masked value by value. -/
theorem Fragment.masked_values (vs : List SqlValue) :
    masked (values vs) = values (vs.map SqlValue.masked) := by
  rw [values, values, masked_commas, List.map_map, List.map_map]
  rfl

namespace Condition

theorem fragment_joined_all (cs : List Condition) :
    (joined .all cs).fragment = Fragment.joined " AND " (fragments cs) := by
  cases cs with
  | nil => rfl
  | cons c cs => cases cs <;> rfl

theorem fragment_joined_any (cs : List Condition) :
    (joined .any cs).fragment = Fragment.joined " OR " (fragments cs) := by
  cases cs with
  | nil => rfl
  | cons c cs => cases cs <;> rfl

theorem masked_isIn (column : String) (negated : Bool) (values : List SqlValue) :
    (isIn column negated (values.map SqlValue.masked)).fragment =
      (isIn column negated values).fragment.masked := by
  show _ ++ Fragment.parenthesized (Fragment.values (values.map SqlValue.masked)) = _
  rw [← Fragment.masked_values, ← Fragment.masked_parenthesized]
  rfl

end Condition

namespace Predicate

theorem masked_negation {parts : List (Predicate SqlValue)}
    (ih : Condition.fragments (conditions (mapAll SqlValue.masked parts)) =
      (Condition.fragments (conditions parts)).map Fragment.masked) :
    (Condition.not (conditions (mapAll SqlValue.masked parts))).fragment =
      (Condition.not (conditions parts)).fragment.masked := by
  rw [Condition.fragment, Condition.fragment, ih, Fragment.masked_cons,
    Fragment.masked_parenthesized, Fragment.masked_separatedBy]
  rfl

mutual
/-- By recursion on the predicate, which a condition states. -/
theorem masked_fragment : ∀ p : Predicate SqlValue, p.Writable →
    (p.map SqlValue.masked).condition.fragment = p.condition.fragment.masked
  | .isNull _, _ | .isNotNull _, _ | .never, _ | .compare _ _ _, _ | .like _ _ _, _ => rfl
  | .isIn _ _ [], _ => rfl
  | .isIn column negated (v :: vs), _ => Condition.masked_isIn column negated (v :: vs)
  | .all parts, ⟨_, writable⟩ => by
    rw [map, condition, condition, Condition.fragment_joined_all, Condition.fragment_joined_all,
      Fragment.masked_joined, masked_fragments parts writable]
  | .any parts, ⟨_, writable⟩ => by
    rw [map, condition, condition, Condition.fragment_joined_any, Condition.fragment_joined_any,
      Fragment.masked_joined, masked_fragments parts writable]
  | .not (.all parts), ⟨_, writable⟩ => masked_negation (masked_fragments parts writable)

theorem masked_fragments : ∀ ps : List (Predicate SqlValue), WritableAll ps →
    Condition.fragments (conditions (mapAll SqlValue.masked ps)) =
      (Condition.fragments (conditions ps)).map Fragment.masked
  | [], _ => rfl
  | p :: ps, ⟨first, others⟩ => by
    rw [mapAll, conditions, conditions, Condition.fragments, Condition.fragments,
      masked_fragment p first, masked_fragments ps others, List.map_cons]
end

end Predicate

/-- The masked fragments of conditions are those of their predicates over masked values. -/
theorem Compiled.masked_fragments {ps : List (Predicate Given)} {cs : List Condition}
    (compiled : Compiled ps cs) :
    (Condition.fragments cs).map Fragment.masked =
      Condition.fragments (Predicate.conditions (Predicate.mapAll Given.masked ps)) := by
  have typed : Predicate.mapAll SqlValue.masked (Predicate.mapAll Given.typed ps) =
      Predicate.mapAll Given.masked ps := by
    apply Predicate.mapAll_mapAll_of_sites
    intro s site
    exact Given.masked_typed (compiled.sites s site).2
  have writable := Predicate.writableAll_mapAll Given.typed ps compiled.writable
  rw [compiled.conditions, ← Predicate.masked_fragments _ writable, typed]

end DocTable
