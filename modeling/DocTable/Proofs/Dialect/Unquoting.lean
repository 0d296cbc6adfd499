import DocTable.Dialect.Basic

/-!
# Quotes are read back

What a dialect writes as a name or a text is read as that name or text.
-/

namespace DocTable
set_option autoImplicit false

namespace Quoting

theorem between?_cons_append (opening closing : Char) (cs : List Char) :
    between? opening closing (opening :: cs ++ [closing]) = some cs := by
  simp [between?]

/-- A character that is written as it is. -/
theorem unescape?_plain {c : Char} {cs rest : List Char} (notBackslash : c ≠ backslash)
    (notApostrophe : c ≠ apostrophe) (read : unescape? cs = some rest) :
    unescape? (c :: cs) = some (c :: rest) := by
  cases cs with
  | nil =>
    obtain rfl : [] = rest := by simpa [unescape?] using read
    simp [unescape?, notBackslash, notApostrophe]
  | cons d ds => simp [unescape?, notBackslash, notApostrophe, read]

theorem unescape?_backslash (c : Char) (cs : List Char) :
    unescape? (backslash :: c :: cs) = (unescape? cs).map (escaped c :: ·) := by
  rw [unescape?, if_pos rfl]

theorem unescape?_escape (cs : List Char) : unescape? (escape cs) = some cs := by
  induction cs with
  | nil => rfl
  | cons c cs ih =>
    rw [escape]
    split
    · rename_i h
      rw [unescape?_backslash, ih, h]
      rfl
    split
    · rename_i h
      rw [unescape?, if_neg (by decide), if_pos rfl, if_pos rfl, ih, h]
      rfl
    split
    · rename_i h
      rw [unescape?_backslash, ih, h]
      rfl
    split
    · rename_i h
      rw [unescape?_backslash, ih, h]
      rfl
    · rename_i notBackslash notApostrophe _ _
      exact unescape?_plain notBackslash notApostrophe ih

end Quoting

namespace TextQuoting
open Quoting

theorem unquoteChars?_quoteChars (q : TextQuoting) (cs : List Char) :
    q.unquoteChars? (q.quoteChars cs) = some cs := by
  cases q with
  | plain =>
    rw [quoteChars, unquoteChars?, between?_cons_append]
    exact undouble?_double apostrophe cs
  | national =>
    show (between? apostrophe apostrophe (apostrophe :: double apostrophe cs ++ [apostrophe])).bind
      (undouble? apostrophe) = some cs
    rw [between?_cons_append]
    exact undouble?_double apostrophe cs
  | backslash =>
    rw [quoteChars, unquoteChars?, between?_cons_append]
    exact unescape?_escape cs

end TextQuoting

namespace Dialect

theorem unquoteText?_quoteText (d : Dialect) (s : String) :
    d.unquoteText? (d.quoteText s) = some s := by
  rw [unquoteText?, quoteText, String.toList_ofList, TextQuoting.unquoteChars?_quoteChars]
  simp

/-- The name that a quoted one stands for. -/
def unquoteNameChars? (d : Dialect) (cs : List Char) : Option String :=
  ((Quoting.between? d.openingQuote d.closingQuote cs).bind
    (Quoting.undouble? d.closingQuote)).map String.ofList

theorem unquoteNameChars?_quoteNameChars (d : Dialect) (name : String) :
    d.unquoteNameChars? (d.quoteNameChars name.toList) = some name := by
  rw [unquoteNameChars?, quoteNameChars, Quoting.between?_cons_append]
  simp [Quoting.undouble?_double]

/-- Different names stay different when they are quoted. -/
theorem quoteName_injective (d : Dialect) : Function.Injective d.quoteName := by
  intro name other same
  have chars : d.quoteNameChars name.toList = d.quoteNameChars other.toList :=
    String.ofList_injective same
  have read := congrArg d.unquoteNameChars? chars
  rw [unquoteNameChars?_quoteNameChars, unquoteNameChars?_quoteNameChars] at read
  exact Option.some.inj read

end Dialect
end DocTable
