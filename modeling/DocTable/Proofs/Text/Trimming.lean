import DocTable.Text.Split
import Mathlib.Data.List.DropRight

/-!
# Trimming

Trimming twice is trimming once (`trim_trim`), and takes away just the blanks around a text
(`Padded.trim_eq`). Trimmed texts stay trimmed when they are joined by a character that is no
blank (`trim_intercalate_map_trim`), and a joined text with blanks at its ends only is trimmed by
trimming its pieces (`intercalate_map_trim`).
-/

namespace DocTable.Text
set_option autoImplicit false

variable {c : Char} {cs : List Char}

theorem trimChars_cons_blank (blank : isBlank c = true) (cs : List Char) :
    trimChars (c :: cs) = trimChars cs := by
  rw [trimChars, List.dropWhile_cons_of_pos blank, trimChars]

theorem trimChars_concat_blank (blank : isBlank c = true) (cs : List Char) :
    trimChars (cs ++ [c]) = trimChars cs := by
  rw [trimChars, trimChars, List.dropWhile_append]
  split
  · rename_i nothing
    rw [List.isEmpty_iff.mp nothing, List.dropWhile_cons_of_pos blank, List.dropWhile_nil]
  · exact List.rdropWhile_concat_pos isBlank _ c blank

theorem trimEndChars_cons (solid : isBlank c = false) (cs : List Char) :
    trimEndChars (c :: cs) = c :: trimEndChars cs := by
  rw [trimEndChars, List.reverse_cons, List.dropWhile_append]
  split
  · rename_i nothing
    rw [trimEndChars, List.isEmpty_iff.mp nothing, List.dropWhile_cons_of_neg (by simp [solid])]
    rfl
  · rw [List.reverse_append]
    rfl

theorem trimChars_cons (solid : isBlank c = false) (cs : List Char) :
    trimChars (c :: cs) = c :: trimEndChars cs := by
  rw [trimChars, List.dropWhile_cons_of_neg (by simp [solid]), trimEndChars_cons solid]

theorem trimEndChars_append {ds : List Char} (some : trimEndChars ds ≠ []) (cs : List Char) :
    trimEndChars (cs ++ ds) = cs ++ trimEndChars ds := by
  have rest : (ds.reverse.dropWhile isBlank).isEmpty = false := by
    simpa [trimEndChars] using some
  rw [trimEndChars, List.reverse_append, List.dropWhile_append, rest]
  simp [trimEndChars]

/-- Around a character that is no blank, each side is trimmed at its own end. -/
theorem trimChars_append_cons (solid : isBlank c = false) (cs ds : List Char) :
    trimChars (cs ++ c :: ds) = cs.dropWhile isBlank ++ c :: trimEndChars ds := by
  have start : (cs ++ c :: ds).dropWhile isBlank = cs.dropWhile isBlank ++ c :: ds := by
    rw [List.dropWhile_append]
    split
    · rename_i nothing
      rw [List.isEmpty_iff.mp nothing, List.dropWhile_cons_of_neg (by simp [solid]),
        List.nil_append]
    · rfl
  have some : trimEndChars (c :: ds) ≠ [] := by simp [trimEndChars_cons solid]
  rw [trimChars, start, trimEndChars_append some, trimEndChars_cons solid]

/-- The visible characters of ASCII are no blanks. -/
theorem solid_of_visible (low : 0x20 < c.toNat) (high : c.toNat < 0x7F) : isBlank c = false := by
  simp only [isBlank, blankRanges, List.any_cons, List.any_nil, Bool.or_false]
  simp
  omega

/-- A text without blanks stays as it is. -/
theorem trimChars_of_solid (solid : ∀ c ∈ cs, isBlank c = false) : trimChars cs = cs := by
  have ends : ∀ ds : List Char, (∀ c ∈ ds, isBlank c = false) → trimEndChars ds = ds := by
    intro ds solid
    induction ds with
    | nil => rfl
    | cons d ds ih =>
      obtain ⟨first, others⟩ := List.forall_mem_cons.mp solid
      rw [trimEndChars_cons first, ih others]
  cases cs with
  | nil => rfl
  | cons c cs =>
    obtain ⟨first, others⟩ := List.forall_mem_cons.mp solid
    rw [trimChars_cons first, ends cs others]

theorem dropWhile_trimChars (cs : List Char) :
    (trimChars cs).dropWhile isBlank = trimChars cs := by
  induction cs with
  | nil => rfl
  | cons c cs ih =>
    cases blank : isBlank c with
    | true => rw [trimChars_cons_blank blank, ih]
    | false => rw [trimChars_cons blank, List.dropWhile_cons_of_neg (by simp [blank])]

theorem trimEndChars_trimChars (cs : List Char) : trimEndChars (trimChars cs) = trimChars cs :=
  List.rdropWhile_idempotent isBlank _

theorem trimChars_trimChars (cs : List Char) : trimChars (trimChars cs) = trimChars cs := by
  rw [trimChars, dropWhile_trimChars, trimEndChars_trimChars]

theorem trim_trim (s : String) : trim (trim s) = trim s := by
  apply String.toList_inj.mp
  rw [toList_trim, toList_trim, trimChars_trimChars]

theorem mem_of_mem_trimChars (mem : c ∈ trimChars cs) : c ∈ cs := by
  obtain ⟨front, back, whole, -, -⟩ := trimChars_decomposition cs
  exact whole ▸ List.mem_append_left _ (List.mem_append_right _ mem)

/-! ## Blanks around a text -/

/-- A text that is another one with blanks around it, or without any. -/
def Padded (s padded : String) : Prop :=
  ∃ front back, padded = front ++ s ++ back ∧
    (∀ c ∈ front.toList, isBlank c = true) ∧ ∀ c ∈ back.toList, isBlank c = true

theorem trimChars_append_blanks {front back : List Char} (before : ∀ c ∈ front, isBlank c = true)
    (after : ∀ c ∈ back, isBlank c = true) (cs : List Char) :
    trimChars (front ++ cs ++ back) = trimChars cs := by
  induction back generalizing cs with
  | nil =>
    rw [List.append_nil]
    induction front with
    | nil => rfl
    | cons c front ih =>
      obtain ⟨first, others⟩ := List.forall_mem_cons.mp before
      rw [List.cons_append, trimChars_cons_blank first, ih others]
  | cons c back ih =>
    obtain ⟨first, others⟩ := List.forall_mem_cons.mp after
    rw [List.append_cons, List.append_assoc front, ih others, trimChars_concat_blank first]

/-- Blanks around a text do not count. -/
theorem Padded.trim_eq {s padded : String} (h : Padded s padded) : trim padded = trim s := by
  obtain ⟨front, back, rfl, before, after⟩ := h
  apply String.toList_inj.mp
  rw [toList_trim, toList_trim, String.toList_append, String.toList_append,
    trimChars_append_blanks before after]

/-- Blanks around a text bring no other character. -/
theorem Padded.not_mem {s padded : String} (h : Padded s padded) (solid : isBlank c = false)
    (none : c ∉ s.toList) : c ∉ padded.toList := by
  obtain ⟨front, back, rfl, before, after⟩ := h
  simp only [String.toList_append, List.mem_append, not_or]
  refine ⟨⟨fun mem => ?_, none⟩, fun mem => ?_⟩
  · exact absurd (before _ mem) (by simp [solid])
  · exact absurd (after _ mem) (by simp [solid])

/-- The blanks at the start of a text are blanks around the rest. -/
theorem padded_dropWhile (s : String) : Padded (String.ofList (s.toList.dropWhile isBlank)) s := by
  refine ⟨String.ofList (s.toList.takeWhile isBlank), "", ?_, fun c mem => ?_,
    List.forall_mem_nil _⟩
  · apply String.toList_inj.mp
    simp
  · rw [String.toList_ofList] at mem
    exact List.all_eq_true.mp List.all_takeWhile c mem

/-- The blanks at the end of a text are blanks around the rest. -/
theorem padded_trimEndChars (s : String) : Padded (String.ofList (trimEndChars s.toList)) s := by
  refine ⟨"", String.ofList (s.toList.reverse.takeWhile isBlank).reverse, ?_,
    List.forall_mem_nil _, fun c mem => ?_⟩
  · apply String.toList_inj.mp
    rw [String.empty_append, String.toList_append, String.toList_ofList, String.toList_ofList,
      trimEndChars, ← List.reverse_append, List.takeWhile_append_dropWhile, List.reverse_reverse]
  · rw [String.toList_ofList, List.mem_reverse] at mem
    exact List.all_eq_true.mp List.all_takeWhile c mem

/-- A text without blanks. -/
def Unblanked (s : String) : Prop := (s.toList.all fun c => !isBlank c) = true

instance (s : String) : Decidable (Unblanked s) := instDecidableEqBool _ _

theorem unblanked_iff {s : String} : Unblanked s ↔ ∀ c ∈ s.toList, isBlank c = false := by
  simp [Unblanked]

theorem unblanked_append_iff {s t : String} : Unblanked (s ++ t) ↔ Unblanked s ∧ Unblanked t := by
  simp [Unblanked]

namespace Unblanked

variable {s t : String}

theorem trim_eq (h : Unblanked s) : trim s = s := by
  apply String.toList_inj.mp
  rw [toList_trim, trimChars_of_solid (unblanked_iff.mp h)]

theorem append (hs : Unblanked s) (ht : Unblanked t) : Unblanked (s ++ t) :=
  unblanked_append_iff.mpr ⟨hs, ht⟩

theorem ofList {cs : List Char} (solid : ∀ c ∈ cs, isBlank c = false) :
    Unblanked (String.ofList cs) := by
  rwa [unblanked_iff, String.toList_ofList]

end Unblanked

/-! ## Pieces -/

variable {sep : Char}

theorem splitChars_of_not_mem (h : sep ∉ cs) : splitChars sep cs = [cs] := by
  induction cs with
  | nil => rfl
  | cons c cs ih =>
    rw [List.mem_cons, not_or] at h
    rw [splitChars, if_neg (Ne.symm h.1), ih h.2]

theorem splitChars_append (sep : Char) (xs ys : List Char) :
    splitChars sep (xs ++ sep :: ys) = splitChars sep xs ++ splitChars sep ys := by
  induction xs with
  | nil => simp [splitChars]
  | cons c cs ih =>
    rw [List.cons_append, splitChars, splitChars, ih]
    split
    · rfl
    · cases pieces : splitChars sep cs with
      | nil => exact absurd pieces (splitChars_ne_nil sep cs)
      | cons piece pieces => rfl

/-- Pieces without separators are found again when they are joined. -/
theorem split_intercalate {pieces : List String} (some : pieces ≠ [])
    (clean : ∀ piece ∈ pieces, sep ∉ piece.toList) :
    split sep ((String.singleton sep).intercalate pieces) = pieces := by
  induction pieces with
  | nil => exact absurd rfl some
  | cons piece pieces ih =>
    obtain ⟨first, others⟩ := List.forall_mem_cons.mp clean
    cases pieces with
    | nil => simp [split, splitChars_of_not_mem first]
    | cons next pieces =>
      have rest := ih (List.cons_ne_nil _ _) others
      rw [split] at rest ⊢
      rw [String.intercalate_cons_cons, String.append_assoc, String.toList_append,
        String.toList_append, String.toList_singleton, List.singleton_append, splitChars_append,
        splitChars_of_not_mem first, List.map_append, rest, List.map_singleton,
        String.ofList_toList, List.singleton_append]

/-! ## Joined texts -/

theorem trim_append (solid : isBlank sep = false) (s t : String) :
    trim (s ++ String.singleton sep ++ t) = String.ofList (s.toList.dropWhile isBlank) ++
      String.singleton sep ++ String.ofList (trimEndChars t.toList) := by
  apply String.toList_inj.mp
  simp [toList_trim, trimChars_append_cons solid]

/-- Trimmed texts stay trimmed when they are joined. -/
theorem trim_intercalate_map_trim (solid : isBlank sep = false) (ss : List String) :
    trim ((String.singleton sep).intercalate (ss.map trim)) =
      (String.singleton sep).intercalate (ss.map trim) := by
  have front (s : String) : String.ofList ((trim s).toList.dropWhile isBlank) = trim s := by
    rw [toList_trim, dropWhile_trimChars, trim]
  have back {s : String} (trimmed : trim s = s) : String.ofList (trimEndChars s.toList) = s := by
    rw [← trimmed, toList_trim, trimEndChars_trimChars, trim]
  induction ss with
  | nil => rfl
  | cons s ss ih =>
    cases ss with
    | nil => simp [trim_trim]
    | cons t ss =>
      rw [List.map_cons] at ih
      rw [List.map_cons, List.map_cons, String.intercalate_cons_cons, trim_append solid, front,
        back ih]

/-- When only the ends of a joined text are blank, trimming its pieces trims the whole. -/
theorem intercalate_map_trim (solid : isBlank sep = false) {ss : List String}
    (inside : Unblanked (trim ((String.singleton sep).intercalate ss))) :
    (String.singleton sep).intercalate (ss.map trim) =
      trim ((String.singleton sep).intercalate ss) := by
  induction ss with
  | nil => rfl
  | cons s ss ih =>
    cases ss with
    | nil => simp
    | cons t ss =>
      rw [String.intercalate_cons_cons, trim_append solid, unblanked_append_iff,
        unblanked_append_iff] at inside
      obtain ⟨⟨front, -⟩, back⟩ := inside
      -- Each side is trimmed at its outer end, and holds no blank after that, not even at the inner.
      have first : trim s = String.ofList (s.toList.dropWhile isBlank) := by
        rw [(padded_dropWhile s).trim_eq, front.trim_eq]
      have others : trim ((String.singleton sep).intercalate (t :: ss)) =
          String.ofList (trimEndChars ((String.singleton sep).intercalate (t :: ss)).toList) := by
        rw [(padded_trimEndChars _).trim_eq, back.trim_eq]
      have rest := ih (others ▸ back)
      rw [List.map_cons] at rest
      rw [List.map_cons, List.map_cons, String.intercalate_cons_cons, rest, first, others,
        String.intercalate_cons_cons, trim_append solid]

end DocTable.Text
