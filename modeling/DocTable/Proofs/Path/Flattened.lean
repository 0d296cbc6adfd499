import DocTable.Identifier
import DocTable.Path
import DocTable.Proofs.Text.Trimming

/-!
# Chains of names and their column keys

A chain of names through nested objects has the column key that joins the keys of its
names. A column key has no dots and is flattened to itself (`flatten_columnKey`). However a
column's path is cut into names, their chain has the column's own key (`columnKey_of_isWord`),
and so has the key alone.
-/

namespace DocTable
set_option autoImplicit false

namespace Identifier

theorem range_of_isRest {c : Char} (h : isRest c = true) : 48 ≤ c.toNat ∧ c.toNat ≤ 122 := by
  have ranges : (((decide ('A'.val ≤ c.val ∧ c.val ≤ 'Z'.val) ||
      ('a'.val ≤ c.val && c.val ≤ 'z'.val)) ||
      ('0'.val ≤ c.val && c.val ≤ '9'.val)) || c = '_') = true := h
  simp only [Bool.or_eq_true, Bool.and_eq_true, decide_eq_true_eq, UInt32.le_iff_toNat_le] at ranges
  rcases ranges with ((⟨low, high⟩ | ⟨low, high⟩) | ⟨low, high⟩) | rfl
  · exact ⟨low.trans' (by decide), high.trans (by decide)⟩
  · exact ⟨low.trans' (by decide), high.trans (by decide)⟩
  · exact ⟨low.trans' (by decide), high.trans (by decide)⟩
  · decide

theorem isRest_of_mem {cs : List Char} (word : isWord cs = true) {c : Char} (mem : c ∈ cs) :
    isRest c = true := by
  cases cs with
  | nil => cases mem
  | cons first rest =>
    obtain ⟨start, more⟩ := Bool.and_eq_true_iff.mp word
    rcases List.mem_cons.mp mem with rfl | mem
    · simp only [isFirst, Bool.or_eq_true] at start
      simp only [isRest, Char.isAlphanum, Bool.or_eq_true]
      exact start.imp_left .inl
    · exact List.all_eq_true.mp more c mem

/-- A word holds no blank. -/
theorem solid_of_isWord {cs : List Char} (word : isWord cs = true) :
    ∀ c ∈ cs, Text.isBlank c = false := by
  intro c mem
  obtain ⟨low, high⟩ := range_of_isRest (isRest_of_mem word mem)
  exact Text.solid_of_visible (by omega) (by omega)

/-- A word holds no dot. -/
theorem dot_not_mem {cs : List Char} (word : isWord cs = true) : '.' ∉ cs := by
  intro mem
  have low := (range_of_isRest (isRest_of_mem word mem)).1
  revert low
  decide

end Identifier

namespace Path

/-! ## Dots and separators -/

/-- A path with the separator in the place of its dots. -/
def undotted (path : String) : String := separator.intercalate (segments path)

theorem flatten_eq (path : String) : flatten path = undotted (Text.trim path) := rfl

/-- What stands in a column key for a character of a path. -/
def keyChars (c : Char) : List Char := if c = '.' then separator.toList else [c]

theorem toList_undotted (path : String) :
    (undotted path).toList = path.toList.flatMap keyChars := by
  have pieces : (segments path).map String.toList = Text.splitChars '.' path.toList :=
    Text.map_toList_split '.' path
  rw [undotted, String.toList_intercalate, pieces, Text.intercalate_splitChars]
  rfl

theorem undotted_append (above below : String) :
    undotted (above ++ "." ++ below) = undotted above ++ separator ++ undotted below := by
  apply String.toList_inj.mp
  simp [toList_undotted, keyChars]

theorem segments_of_not_mem {name : String} (h : '.' ∉ name.toList) : segments name = [name] := by
  rw [segments, Text.split, Text.splitChars_of_not_mem h, List.map_singleton, String.ofList_toList]

theorem undotted_of_not_mem {name : String} (h : '.' ∉ name.toList) : undotted name = name := by
  rw [undotted, segments_of_not_mem h, String.intercalate_singleton]

theorem dot_not_mem_undotted (path : String) : '.' ∉ (undotted path).toList := by
  rw [toList_undotted, List.mem_flatMap]
  rintro ⟨c, -, mem⟩
  rw [keyChars] at mem
  split at mem
  · revert mem
    decide
  · rename_i other
    exact other (List.mem_singleton.mp mem).symm

/-- A character of a path is a dot or stays. -/
theorem mem_undotted {path : String} {c : Char} (mem : c ∈ path.toList) :
    c = '.' ∨ c ∈ (undotted path).toList := by
  rcases eq_or_ne c '.' with dot | other
  · exact .inl dot
  · rw [toList_undotted]
    exact .inr (List.mem_flatMap.mpr ⟨c, mem, by simp [keyChars, other]⟩)

theorem dropWhile_flatMap_keyChars (cs : List Char) :
    (cs.flatMap keyChars).dropWhile Text.isBlank =
      (cs.dropWhile Text.isBlank).flatMap keyChars := by
  induction cs with
  | nil => rfl
  | cons c cs ih =>
    cases blank : Text.isBlank c with
    | true =>
      have notDot : c ≠ '.' := by
        rintro rfl
        revert blank
        decide
      simp [keyChars, notDot, blank, ih]
    | false =>
      rw [List.dropWhile_cons_of_neg (by simp [blank]), List.flatMap_cons]
      by_cases dot : c = '.'
      · subst dot
        rfl
      · simp [keyChars, dot, blank]

/-- Neither dots nor what stands for them are blank, so either text is trimmed alike. -/
theorem trim_undotted (path : String) : Text.trim (undotted path) = undotted (Text.trim path) := by
  have mirrored (cs : List Char) : (cs.flatMap keyChars).reverse = cs.reverse.flatMap keyChars := by
    have each : List.reverse ∘ keyChars = keyChars := by
      funext c
      by_cases dot : c = '.' <;> simp [keyChars, dot, separator]
    rw [List.reverse_flatMap, each]
  apply String.toList_inj.mp
  rw [Text.toList_trim, toList_undotted, toList_undotted, Text.toList_trim, Text.trimChars,
    Text.trimChars, Text.trimEndChars, Text.trimEndChars, dropWhile_flatMap_keyChars, mirrored,
    dropWhile_flatMap_keyChars, mirrored]

theorem dot_not_mem_flatten (path : String) : '.' ∉ (flatten path).toList :=
  dot_not_mem_undotted (Text.trim path)

/-- One segment is flattened by trimming it. -/
theorem flatten_of_not_mem {name : String} (h : '.' ∉ name.toList) :
    flatten name = Text.trim name := by
  rw [flatten_eq, undotted_of_not_mem]
  rw [Text.toList_trim]
  exact mt Text.mem_of_mem_trimChars h

theorem flatten_of_isWord {name : String} (word : Identifier.isWord name.toList = true) :
    flatten name = name := by
  rw [flatten_of_not_mem (Identifier.dot_not_mem word)]
  apply String.toList_inj.mp
  rw [Text.toList_trim, Text.trimChars_of_solid (Identifier.solid_of_isWord word)]

/-! ## Column keys -/

/-- The column key of a chain of names. -/
def columnKey (names : List String) : String := separator.intercalate (names.map flatten)

theorem columnKey_singleton (name : String) : columnKey [name] = flatten name :=
  String.intercalate_singleton

/-- The key of a chain is the path of its trimmed names without the dots. -/
theorem columnKey_eq_undotted (names : List String) :
    columnKey names = undotted (".".intercalate (names.map Text.trim)) := by
  induction names with
  | nil => rfl
  | cons name names ih =>
    cases names with
    | nil => rw [columnKey_singleton, List.map_singleton, String.intercalate_singleton, flatten_eq]
    | cons next names =>
      simp only [columnKey, List.map_cons, String.intercalate_cons_cons, undotted_append] at ih ⊢
      rw [ih, flatten_eq]

/-- A column key is flattened to itself. -/
theorem flatten_columnKey (names : List String) : flatten (columnKey names) = columnKey names := by
  have dot : Text.isBlank '.' = false := by decide
  have undottedKey : '.' ∉ (columnKey names).toList := by
    rw [columnKey_eq_undotted]
    exact dot_not_mem_undotted _
  rw [flatten_of_not_mem undottedKey, columnKey_eq_undotted, trim_undotted]
  exact congrArg undotted (Text.trim_intercalate_map_trim dot names)

/-- However a path is cut into names, their chain has the key of the path, when that is a
word. -/
theorem columnKey_of_isWord {names : List String}
    (word : Identifier.isWord (flatten (".".intercalate names)).toList = true) :
    columnKey names = flatten (".".intercalate names) := by
  have dot : Text.isBlank '.' = false := by decide
  -- Blanks inside the path would stay in the key, so there are only those around it.
  have inside : Text.Unblanked (Text.trim (".".intercalate names)) := by
    rw [Text.unblanked_iff]
    intro c mem
    rcases mem_undotted mem with rfl | mem
    · exact dot
    · exact Identifier.solid_of_isWord word c mem
  rw [columnKey_eq_undotted, flatten_eq]
  exact congrArg undotted (Text.intercalate_map_trim dot inside)

theorem columnKey_segments {path : String}
    (word : Identifier.isWord (flatten path).toList = true) :
    columnKey (segments path) = flatten path := by
  have whole : ".".intercalate (segments path) = path := Text.intercalate_split '.' path
  rw [← whole] at word
  rw [columnKey_of_isWord word, whole]

/-! ## Paths of names -/

theorem mem_toList_intercalate {separator name : String} {names : List String} (h : name ∈ names)
    {c : Char} (mem : c ∈ name.toList) : c ∈ (separator.intercalate names).toList := by
  induction names with
  | nil => cases h
  | cons first names ih =>
    cases names with
    | nil =>
      obtain rfl := List.mem_singleton.mp h
      rwa [String.intercalate_singleton]
    | cons next names =>
      rw [String.intercalate_cons_cons, String.toList_append, String.toList_append]
      rcases List.mem_cons.mp h with rfl | h
      · exact List.mem_append_left _ (List.mem_append_left _ mem)
      · exact List.mem_append_right _ (ih h)

/-- A name below a path is one more name of the path. -/
theorem intercalate_child (path name : String) (more : List String) :
    ".".intercalate (child (some path) name :: more) = ".".intercalate (path :: name :: more) := by
  rw [child, String.intercalate_cons_cons, String.append_assoc, String.intercalate_cons_append,
    String.intercalate_cons_append, ← String.append_assoc]

/-- The paths of the objects that stand around the last of some names. -/
def passed (path : String) : List String → List String
  | [] => []
  | name :: more => path :: passed (child (some path) name) more

/-- The whole path goes on below each of them. -/
theorem exists_below_of_mem_passed {path above : String} {more : List String}
    (mem : above ∈ passed path more) :
    ∃ below, ".".intercalate (path :: more) = above ++ "." ++ below := by
  induction more generalizing path with
  | nil => cases mem
  | cons name more ih =>
    rcases List.mem_cons.mp mem with rfl | mem
    · exact ⟨".".intercalate (name :: more), by rw [String.intercalate_cons_cons]⟩
    · rw [← intercalate_child]
      exact ih mem

/-- What is flattened below a column's path is not flattened to the same key. -/
theorem flatten_ne_of_below {above below : String}
    (word : Identifier.isWord (flatten above).toList = true) :
    flatten (above ++ "." ++ below) ≠ flatten above := by
  intro same
  have path : ".".intercalate [above, below] = above ++ "." ++ below := by
    rw [String.intercalate_cons_cons, String.intercalate_singleton]
  have whole : columnKey [above, below] = flatten (above ++ "." ++ below) := by
    rw [← path] at same ⊢
    exact columnKey_of_isWord (by rw [same]; exact word)
  have length := congrArg String.length (whole.trans same)
  have separates : separator.length = 3 := rfl
  simp only [columnKey, List.map_cons, List.map_nil, String.intercalate_cons_cons,
    String.intercalate_singleton, String.length_append] at length
  omega

/-- The characters of a path whose column key is a word. -/
theorem visible_of_isWord {path : String} (word : Identifier.isWord (flatten path).toList = true)
    {c : Char} (mem : c ∈ path.toList) :
    Identifier.isRest c = true ∨ c = '.' ∨ Text.isBlank c = true := by
  obtain ⟨front, back, whole, before, after⟩ := Text.trimChars_decomposition path.toList
  rw [whole, List.mem_append, List.mem_append, ← Text.toList_trim] at mem
  rcases mem with (mem | mem) | mem
  · exact .inr (.inr (before c mem))
  · rcases mem_undotted mem with dot | mem
    · exact .inr (.inl dot)
    · exact .inl (Identifier.isRest_of_mem word mem)
  · exact .inr (.inr (after c mem))

end Path
end DocTable
