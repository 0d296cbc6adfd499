/-!
# Quoted text and names

Inside a pair of delimiters the closing one is written twice. Where a backslash
escapes, it is written twice as well, and NUL and SUB get escapes of their own.
Reading refuses what is no complete literal.
-/

namespace DocTable
set_option autoImplicit false

namespace Quoting

/-- With every `q` written twice. -/
def double (q : Char) : List Char → List Char
  | [] => []
  | c :: cs => if c = q then q :: q :: double q cs else c :: double q cs

/-- Reads doubled `q`s; refuses one that stands alone. -/
def undouble? (q : Char) : List Char → Option (List Char)
  | [] => some []
  | [c] => if c = q then none else some [c]
  | c :: d :: cs =>
    if c = q then
      if d = q then (undouble? q cs).map (q :: ·) else none
    else (undouble? q (d :: cs)).map (c :: ·)

/-- What stands between an opening and a closing delimiter; two characters even when equal. -/
def between? (opening closing : Char) : List Char → Option (List Char)
  | [] => none
  | c :: cs =>
    if c = opening && cs.getLast? == some closing then some cs.dropLast else none

def nul : Char := '\x00'

def sub : Char := '\x1a'

def backslash : Char := '\\'

def apostrophe : Char := '\x27'

/-- With apostrophes doubled and backslash, NUL and SUB escaped. -/
def escape : List Char → List Char
  | [] => []
  | c :: cs =>
    if c = backslash then backslash :: backslash :: escape cs
    else if c = apostrophe then apostrophe :: apostrophe :: escape cs
    else if c = nul then backslash :: '0' :: escape cs
    else if c = sub then backslash :: 'Z' :: escape cs
    else c :: escape cs

/-- The character that a backslash and a character stand for. -/
def escaped (c : Char) : Char :=
  match c with
  | '0' => nul
  | 'n' => '\n'
  | 'r' => '\r'
  | 't' => '\t'
  | 'Z' => sub
  | c => c

/-- Reads escapes; refuses an apostrophe alone and a backslash at the end. -/
def unescape? : List Char → Option (List Char)
  | [] => some []
  | [c] => if c = backslash || c = apostrophe then none else some [c]
  | c :: d :: cs =>
    if c = backslash then (unescape? cs).map (escaped d :: ·)
    else if c = apostrophe then
      if d = apostrophe then (unescape? cs).map (apostrophe :: ·) else none
    else (unescape? (d :: cs)).map (c :: ·)

theorem undouble?_double (q : Char) (cs : List Char) : undouble? q (double q cs) = some cs := by
  induction cs with
  | nil => rfl
  | cons c cs ih =>
    by_cases h : c = q
    · simp [double, undouble?, h, ih]
    · simp only [double, h, if_false]
      cases hd : double q cs with
      | nil =>
        rw [hd] at ih
        simp_all [undouble?]
      | cons d ds =>
        rw [hd] at ih
        simp [undouble?, h, ih]

end Quoting

/-- How a text literal is written. -/
inductive TextQuoting where
  /-- Apostrophes around, those inside doubled. -/
  | plain
  /-- The same after an `N`, which may be left out when reading. -/
  | national
  /-- Apostrophes around, backslash escapes inside. -/
  | backslash
  deriving DecidableEq, Repr

namespace TextQuoting
open Quoting

def quoteChars : TextQuoting → List Char → List Char
  | .plain, cs => apostrophe :: double apostrophe cs ++ [apostrophe]
  | .national, cs => 'N' :: apostrophe :: double apostrophe cs ++ [apostrophe]
  | .backslash, cs => apostrophe :: escape cs ++ [apostrophe]

def unquoteChars? : TextQuoting → List Char → Option (List Char)
  | .plain, cs => (between? apostrophe apostrophe cs).bind (undouble? apostrophe)
  | .national, 'N' :: cs => (between? apostrophe apostrophe cs).bind (undouble? apostrophe)
  | .national, cs => (between? apostrophe apostrophe cs).bind (undouble? apostrophe)
  | .backslash, cs => (between? apostrophe apostrophe cs).bind unescape?

end TextQuoting
end DocTable
