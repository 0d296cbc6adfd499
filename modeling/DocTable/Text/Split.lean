import DocTable.Text.Blank

/-!
# Splitting at a separator

A text with `n` separators has `n + 1` pieces; joining the pieces with the
separator gives the text back (`intercalate_split`). A comma list is the pieces at
commas, trimmed, without the blank ones.
-/

namespace DocTable.Text
set_option autoImplicit false

/-- The pieces between separators, the empty ones included. -/
def splitChars (sep : Char) : List Char → List (List Char)
  | [] => [[]]
  | c :: cs =>
    if c = sep then [] :: splitChars sep cs
    else
      match splitChars sep cs with
      | [] => [[c]]
      | piece :: pieces => (c :: piece) :: pieces

def split (sep : Char) (s : String) : List String :=
  (splitChars sep s.toList).map String.ofList

/-- The trimmed pieces between commas that are not blank. -/
def commaList (s : String) : List String :=
  ((split ',' s).map trim).filter fun piece => !piece.isEmpty

theorem splitChars_ne_nil (sep : Char) (cs : List Char) : splitChars sep cs ≠ [] := by
  cases cs with
  | nil => simp [splitChars]
  | cons c cs => unfold splitChars; split <;> (try split) <;> simp

/-- Joining the pieces with a word puts the word in the place of each separator. -/
theorem intercalate_splitChars (word : List Char) (sep : Char) (cs : List Char) :
    word.intercalate (splitChars sep cs) = cs.flatMap fun c => if c = sep then word else [c] := by
  induction cs with
  | nil => rfl
  | cons c cs ih =>
    rw [List.flatMap_cons, ← ih, splitChars]
    cases split : splitChars sep cs with
    | nil => exact absurd split (splitChars_ne_nil sep cs)
    | cons piece pieces =>
      by_cases same : c = sep
      · rw [if_pos same, if_pos same, List.intercalate_cons_cons, List.nil_append]
      · rw [if_neg same, if_neg same]
        cases pieces <;> simp [List.intercalate_cons_cons]

theorem map_toList_split (sep : Char) (s : String) :
    (split sep s).map String.toList = splitChars sep s.toList := by
  simp [split, Function.comp_def]

/-- Joining the pieces with the separator gives the text back. -/
theorem intercalate_split (sep : Char) (s : String) :
    (String.singleton sep).intercalate (split sep s) = s := by
  have same : ∀ c : Char, (if c = sep then [sep] else [c]) = [c] := by
    intro c
    split <;> simp_all
  apply String.toList_inj.mp
  rw [String.toList_intercalate, map_toList_split, String.toList_singleton, intercalate_splitChars]
  simp [same]

end DocTable.Text
