import DocTable.Proofs.Predicate.OfFilter
import DocTable.Proofs.Statement.Outcome

/-!
# Conditions and predicates of a filter

A filter that is accepted has one condition for each of its predicates, over the
values that its operands have in the types of their columns (`Condition.compiled_ofMembers`).
A condition of one part is that part, where a predicate may have a node for it.
-/

namespace DocTable
set_option autoImplicit false

/-- Several conditions as one; a single one stands for itself. -/
def Condition.joined (join : List Condition → Condition) : List Condition → Condition
  | [c] => c
  | cs => join cs

namespace Predicate

mutual
/-- The condition that states a predicate. -/
def condition : Predicate SqlValue → Condition
  | .isNull column => .isNull column
  | .isNotNull column => .isNotNull column
  | .compare column op v => .compare column op v
  | .isIn column negated vs => if vs.isEmpty then .never else .isIn column negated vs
  | .like column pattern _ => .like column pattern
  | .never => .never
  | .all parts => Condition.joined .all (conditions parts)
  | .any parts => Condition.joined .any (conditions parts)
  | .not (.all parts) => .not (conditions parts)
  | .not part => .not [condition part]

def conditions : List (Predicate SqlValue) → List Condition
  | [] => []
  | p :: ps => condition p :: conditions ps
end

mutual
/-- There is a condition that states the predicate: no node is without parts, a negation is
one of parts that are all to be met, and no column is outside an empty list. -/
def Writable {ω : Type} : Predicate ω → Prop
  | .isIn _ negated operands => negated = true → operands ≠ []
  | .like _ _ escape => escape = Condition.likeEscape
  | .all parts | .any parts | .not (.all parts) => parts ≠ [] ∧ WritableAll parts
  | .not _ => False
  | .isNull _ | .isNotNull _ | .compare _ _ _ | .never => True

def WritableAll {ω : Type} : List (Predicate ω) → Prop
  | [] => True
  | p :: ps => Writable p ∧ WritableAll ps
end

theorem conditions_append (ps qs : List (Predicate SqlValue)) :
    conditions (ps ++ qs) = conditions ps ++ conditions qs := by
  induction ps with
  | nil => rfl
  | cons p ps ih => simp [conditions, ih]

theorem length_conditions (ps : List (Predicate SqlValue)) :
    (conditions ps).length = ps.length := by
  induction ps with
  | nil => rfl
  | cons p ps ih => simp [conditions, ih]

theorem writableAll_append {ω : Type} {ps qs : List (Predicate ω)} :
    WritableAll (ps ++ qs) ↔ WritableAll ps ∧ WritableAll qs := by
  induction ps with
  | nil => simp [WritableAll]
  | cons p ps ih => simp [WritableAll, ih, and_assoc]

mutual
/-- Whether a predicate can be written does not depend on its operands. -/
theorem writable_map {ω υ : Type} (f : ω → υ) : ∀ p : Predicate ω, p.Writable → (p.map f).Writable
  | .isIn _ _ _, writable => fun negated => by simpa using writable negated
  | .like _ _ _, writable => writable
  | .all parts, ⟨nonempty, writable⟩ | .any parts, ⟨nonempty, writable⟩
  | .not (.all parts), ⟨nonempty, writable⟩ =>
    ⟨by simpa [← List.length_pos_iff, length_mapAll] using nonempty,
      writableAll_mapAll f parts writable⟩
  | .isNull _, _ | .isNotNull _, _ | .compare _ _ _, _ | .never, _ => trivial

theorem writableAll_mapAll {ω υ : Type} (f : ω → υ) :
    ∀ ps : List (Predicate ω), WritableAll ps → WritableAll (mapAll f ps)
  | [], _ => trivial
  | p :: ps, ⟨first, others⟩ => ⟨writable_map f p first, writableAll_mapAll f ps others⟩
end

end Predicate

/-- Conditions that state predicates over given values, each value one of its column's type. -/
structure Compiled (ps : List (Predicate Given)) (cs : List Condition) : Prop where
  conditions : cs = Predicate.conditions (Predicate.mapAll Given.typed ps)
  sites : ∀ s ∈ Predicate.sitesAll ps, s.1 = s.2.field.key ∧ s.2.Fits
  writable : Predicate.WritableAll ps

namespace Compiled

theorem nil : Compiled [] [] := ⟨rfl, fun _ h => absurd h List.not_mem_nil, trivial⟩

theorem append {ps qs : List (Predicate Given)} {cs ds : List Condition} (hp : Compiled ps cs)
    (hq : Compiled qs ds) : Compiled (ps ++ qs) (cs ++ ds) := by
  constructor
  · rw [Predicate.mapAll_append, Predicate.conditions_append, hp.conditions, hq.conditions]
  · intro s hs
    rw [Predicate.sitesAll_append] at hs
    rcases List.mem_append.mp hs with hs | hs
    · exact hp.sites s hs
    · exact hq.sites s hs
  · exact Predicate.writableAll_append.mpr ⟨hp.writable, hq.writable⟩

/-- A predicate without operands. -/
theorem test {p : Predicate Given} {c : Condition} (same : c = (p.map Given.typed).condition)
    (noSites : p.sites = []) (writable : p.Writable) : Compiled [p] [c] := by
  refine ⟨?_, ?_, writable, trivial⟩
  · simp [Predicate.mapAll, Predicate.conditions, same]
  · simp [Predicate.sitesAll, noSites]

theorem compare {f : Field} {v : Json} {value : SqlValue} (op : Comparison)
    (ok : f.coerce v = .ok value) :
    Compiled [.compare f.key op ⟨f, v⟩] [.compare f.key op value] := by
  obtain ⟨fits, typed⟩ := Given.fits_of_coerce ok
  refine ⟨?_, ?_, trivial, trivial⟩
  · simp [Predicate.mapAll, Predicate.map, Predicate.conditions, Predicate.condition, typed]
  · intro s hs
    obtain rfl : s = (f.key, ⟨f, v⟩) := by
      simpa [Predicate.sitesAll, Predicate.sites] using hs
    exact ⟨rfl, fits⟩

theorem like {f : Field} {pattern : String} (textual : f.type.isTextual = true) :
    Compiled [.like f.key ⟨f, .str pattern⟩ Condition.likeEscape]
      [.like f.key (.text pattern)] := by
  have ok : f.coerce (.str pattern) = .ok (.text pattern) := by
    rw [Field.coerce, ColumnType.coerce]
    cases type : f.type with
    | text | blob => rfl
    | _ =>
      rw [type] at textual
      cases textual
  obtain ⟨fits, typed⟩ := Given.fits_of_coerce ok
  refine ⟨?_, ?_, rfl, trivial⟩
  · simp [Predicate.mapAll, Predicate.map, Predicate.conditions, Predicate.condition, typed]
  · intro s hs
    obtain rfl : s = (f.key, ⟨f, .str pattern⟩) := by
      simpa [Predicate.sitesAll, Predicate.sites] using hs
    exact ⟨rfl, fits⟩

/-- Parts as one, where the condition of one part is that part. -/
theorem grouped {join : List (Predicate Given) → Predicate Given}
    {group : List Condition → Condition} {ps : List (Predicate Given)} {cs : List Condition}
    (same : ∀ ps, ((join ps).map Given.typed).condition =
      Condition.joined group (Predicate.conditions (Predicate.mapAll Given.typed ps)))
    (sites : ∀ ps, (join ps).sites = Predicate.sitesAll ps)
    (writable : ∀ ps, ps ≠ [] → Predicate.WritableAll ps → (join ps).Writable)
    (h : Compiled ps cs) : Compiled (Predicate.node join ps) (Condition.group group cs) := by
  obtain ⟨rfl, fits, each⟩ := h
  cases ps with
  | nil => exact nil
  | cons p ps =>
    refine ⟨?_, ?_, writable _ (List.cons_ne_nil p ps) each, trivial⟩
    · show _ = [((join (p :: ps)).map Given.typed).condition]
      rw [same]
      cases ps <;> rfl
    · simpa [Predicate.node, Predicate.sitesAll, sites] using fits

theorem all {ps : List (Predicate Given)} {cs : List Condition} :
    Compiled ps cs → Compiled (Predicate.node .all ps) (Condition.group .all cs) :=
  grouped (fun _ => rfl) (fun _ => rfl) fun _ some each => ⟨some, each⟩

theorem any {ps : List (Predicate Given)} {cs : List Condition} :
    Compiled ps cs → Compiled (Predicate.node .any ps) (Condition.group .any cs) :=
  grouped (fun _ => rfl) (fun _ => rfl) fun _ some each => ⟨some, each⟩

theorem negation {ps : List (Predicate Given)} {cs : List Condition} (h : Compiled ps cs) :
    Compiled (Predicate.node (fun parts => .not (.all parts)) ps)
      (if cs.isEmpty then [] else [.not cs]) := by
  obtain ⟨rfl, sites, writable⟩ := h
  cases ps with
  | nil => exact nil
  | cons p ps =>
    refine ⟨rfl, ?_, ⟨List.cons_ne_nil p ps, writable⟩, trivial⟩
    simpa [Predicate.node, Predicate.sitesAll, Predicate.sites] using sites

end Compiled
end DocTable
