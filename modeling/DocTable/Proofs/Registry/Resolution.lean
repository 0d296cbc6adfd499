import DocTable.Proofs.Path.Flattened
import DocTable.Proofs.Registry.OfSchema

/-!
# Names that stand for columns

A name stands for the column whose key it is flattened to (`resolve?_eq_some_iff`), so a column
is found by its key and by its path, with any blanks around them (`answers_to_names`).
-/

namespace DocTable.Registry
set_option autoImplicit false

variable {r : Registry} {f : Field} {name : String}

theorem resolve?_trim (name : String) : r.resolve? (Text.trim name) = r.resolve? name := by
  simp only [resolve?, Text.trim_trim]

/-- Blanks around a name do not count. -/
theorem resolve?_of_padded {spelled : String} (padded : Text.Padded name spelled) :
    r.resolve? spelled = r.resolve? name := by
  rw [← resolve?_trim, padded.trim_eq, resolve?_trim]

namespace WellFormed

theorem isWord_path (h : r.WellFormed) (mem : f ∈ r.fields) :
    Identifier.isWord (Path.flatten f.sourcePath).toList = true := by
  rw [← h.flattened f mem]
  exact h.word f mem

theorem flatten_trim (name : String) : Path.flatten (Text.trim name) = Path.flatten name := by
  rw [Path.flatten, Text.trim_trim, Path.flatten]

/-- A name is only found as it is when flattening leaves it as it is. -/
theorem key_of_resolve? (h : r.WellFormed) (found : r.resolve? name = some f) :
    f.key = Path.flatten name := by
  unfold resolve? at found
  dsimp only at found
  split at found
  · cases found
  · split at found
    · rename_i direct
      cases found
      have key := key_of_get? direct
      have word := h.word f (mem_fields_of_get? direct)
      rw [← flatten_trim, ← key, Path.flatten_of_isWord word]
    · rw [key_of_get? found, flatten_trim]

/-- A name stands for the column whose key it is flattened to. -/
theorem resolve?_eq_some_iff (h : r.WellFormed) :
    r.resolve? name = some f ↔ f ∈ r.fields ∧ f.key = Path.flatten name := by
  constructor
  · exact fun found => ⟨mem_fields_of_resolve? found, h.key_of_resolve? found⟩
  rintro ⟨mem, key⟩
  have solid : ¬ (Text.trim name).isEmpty = true := by
    intro empty
    have word := h.word f mem
    rw [key, ← flatten_trim, String.isEmpty_iff.mp empty] at word
    revert word
    decide +kernel
  have found : r.resolve? name = (r.get? (Text.trim name)).or (some f) := by
    rw [resolve?, if_neg solid, flatten_trim, ← key, h.get?_key mem]
    cases r.get? (Text.trim name) <;> rfl
  rw [found]
  cases direct : r.get? (Text.trim name) with
  | none => rfl
  | some g =>
    have same : g.key = Path.flatten name :=
      h.key_of_resolve? (by rw [found, direct, Option.some_or])
    rw [Option.some_or, ← h.get?_key (mem_fields_of_get? direct), same, ← key, h.get?_key mem]

theorem resolve?_key (h : r.WellFormed) (mem : f ∈ r.fields) : r.resolve? f.key = some f :=
  h.resolve?_eq_some_iff.mpr ⟨mem, (Path.flatten_of_isWord (h.word f mem)).symm⟩

theorem resolve?_sourcePath (h : r.WellFormed) (mem : f ∈ r.fields) :
    r.resolve? f.sourcePath = some f :=
  h.resolve?_eq_some_iff.mpr ⟨mem, h.flattened f mem⟩

/-- Looking a name up as it is changes nothing: what is found so is found by the flattened name. -/
theorem resolve?_eq_get? (h : r.WellFormed) (name : String) :
    r.resolve? name = r.get? (Path.flatten name) := by
  ext f
  rw [h.resolve?_eq_some_iff, h.get?_eq_some_iff]

/-- A path above a column's own stands for another column, or for none. -/
theorem sourcePath_ne_of_above (h : r.WellFormed) {g : Field} {above below : String}
    (whole : f.sourcePath = above ++ "." ++ below) (found : r.resolve? above = some g) :
    g.sourcePath ≠ f.sourcePath := by
  intro same
  obtain ⟨inside, key⟩ := h.resolve?_eq_some_iff.mp found
  have word : Identifier.isWord (Path.flatten above).toList = true := by
    rw [← key]
    exact h.word g inside
  have again : Path.flatten (above ++ "." ++ below) = Path.flatten above := by
    rw [← whole, ← same, ← h.flattened g inside, key]
  exact Path.flatten_ne_of_below word again

end WellFormed

/-- **One lookup, two names.** A name stands for the column that has its flattened form as key,
whatever else was tried before, and every column is found by its key and by its path, with any
blanks around them. So no other column has a key that spells its path. -/
theorem answers_to_names {schema : Json} (built : ofSchema schema = .ok r) :
    (∀ name, r.resolve? name = r.get? (Path.flatten name)) ∧
    ∀ f ∈ r.fields,
      (∀ spelled, Text.Padded f.key spelled → r.resolve? spelled = some f) ∧
      (∀ spelled, Text.Padded f.sourcePath spelled → r.resolve? spelled = some f) ∧
      ∀ g ∈ r.fields, g.key = Text.trim f.sourcePath → g = f := by
  have wellFormed := wellFormed_ofSchema built
  refine ⟨wellFormed.resolve?_eq_get?, fun f mem => ⟨?_, ?_, ?_⟩⟩
  · intro spelled padded
    rw [resolve?_of_padded padded, wellFormed.resolve?_key mem]
  · intro spelled padded
    rw [resolve?_of_padded padded, wellFormed.resolve?_sourcePath mem]
  · intro g other same
    have path : r.resolve? (Text.trim f.sourcePath) = some f := by
      rw [wellFormed.resolve?_eq_get?, WellFormed.flatten_trim, ← wellFormed.resolve?_eq_get?,
        wellFormed.resolve?_sourcePath mem]
    rw [← same, wellFormed.resolve?_key other] at path
    exact Option.some.inj path

/-- A floor under names with blanks around them, beside a name that holds the separator. -/
def houses : Json :=
  .obj [("required", .arr []), ("properties", .obj [
    ("floor___area", .obj [("type", .str "number")]),
    (" house", .obj [("type", .str "object"), ("required", .arr []), ("properties", .obj [
      ("floor ", .obj [("type", .str "integer")])])])])]

theorem answers_to_floor :
    ∃ r f, ofSchema houses = .ok r ∧ f.key = "house___floor" ∧ f.sourcePath = " house.floor " ∧
      r.resolve? "house.floor" = r.get? "house___floor" ∧
      r.resolve? "\thouse___floor" = some f ∧ r.resolve? "   house.floor \n" = some f := by
  have built : ofSchema houses = .ok ⟨[
      ⟨"floor___area", "floor___area", .double, false, false, false, none⟩,
      ⟨"house___floor", " house.floor ", .number, false, false, false, none⟩]⟩ := by
    decide +kernel
  obtain ⟨lookup, each⟩ := answers_to_names built
  obtain ⟨byKey, byPath, -⟩ := each _ (.tail _ (.tail _ (.head _)))
  refine ⟨_, _, built, rfl, rfl, ?_, byKey _ ?_, byPath _ ?_⟩
  · rw [lookup]
    exact congrArg _ (by decide +kernel)
  · exact ⟨"\t", "", by decide, List.all_eq_true.mp (by decide), List.forall_mem_nil _⟩
  · exact ⟨"  ", "\n", by decide, List.all_eq_true.mp (by decide), List.all_eq_true.mp (by decide)⟩

end DocTable.Registry
