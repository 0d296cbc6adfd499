import DocTable.Json.Number

/-!
# The tokens of a JSON text

Blanks are space, tab, line feed and carriage return. A string holds no raw
control character, and an escaped surrogate only as half of a pair. Each token
takes at least one character (`token?_length`), so that reading ends.
-/

namespace DocTable.Json
set_option autoImplicit false

inductive Token where
  | beginArray
  | endArray
  | beginObject
  | endObject
  | colon
  | comma
  | null
  | bool (b : Bool)
  | num (n : Number)
  | str (s : String)
  deriving DecidableEq, Repr

def isJsonBlank (c : Char) : Bool :=
  c = ' ' || c = '\t' || c = '\n' || c = '\r'

def hexValue? (c : Char) : Option Nat :=
  if '0' ≤ c ∧ c ≤ '9' then some (c.toNat - '0'.toNat)
  else if 'a' ≤ c ∧ c ≤ 'f' then some (c.toNat - 'a'.toNat + 10)
  else if 'A' ≤ c ∧ c ≤ 'F' then some (c.toNat - 'A'.toNat + 10)
  else none

/-- A character of a string, or half of a pair of escapes. -/
inductive StringUnit where
  | char (c : Char)
  | surrogate (n : Nat)

/-- The unit of four hexadecimal digits. -/
def hexUnit? (a b c d : Char) : Option StringUnit := do
  let n := ((← hexValue? a) * 16 + (← hexValue? b)) * 256 + (← hexValue? c) * 16 + (← hexValue? d)
  if 0xD800 ≤ n ∧ n < 0xE000 then some (.surrogate n) else some (.char (Char.ofNat n))

/-- The character of a one-letter escape. -/
def letterEscape? (c : Char) : Option Char :=
  match c with
  | '"' => some '"'
  | '\\' => some '\\'
  | '/' => some '/'
  | 'b' => some '\x08'
  | 'f' => some '\x0c'
  | 'n' => some '\n'
  | 'r' => some '\r'
  | 't' => some '\t'
  | _ => none

/-- The units up to the closing quote, and what follows it. -/
def stringUnits? : List Char → Option (List StringUnit × List Char)
  | [] => none
  | '"' :: rest => some ([], rest)
  | ['\\'] => none
  | '\\' :: e :: cs =>
    if e = 'u' then
      match cs with
      | a :: b :: c :: d :: cs => do
        let unit ← hexUnit? a b c d
        let (units, rest) ← stringUnits? cs
        some (unit :: units, rest)
      | _ => none
    else do
      let c ← letterEscape? e
      let (units, rest) ← stringUnits? cs
      some (.char c :: units, rest)
  | c :: cs =>
    if c.toNat < 0x20 then none
    else (stringUnits? cs).map fun r => (.char c :: r.1, r.2)

/-- Joins each high half with the low half after it; a half alone is refused. -/
def joinPairs? : List StringUnit → Option (List Char)
  | [] => some []
  | .char c :: us => (joinPairs? us).map (c :: ·)
  | .surrogate high :: .surrogate low :: us =>
    if high < 0xDC00 ∧ 0xDC00 ≤ low then
      (joinPairs? us).map (Char.ofNat (0x10000 + (high - 0xD800) * 0x400 + (low - 0xDC00)) :: ·)
    else none
  | .surrogate _ :: _ => none

/-- A string after its opening quote. -/
def stringTail? (cs : List Char) : Option (String × List Char) := do
  let (units, rest) ← stringUnits? cs
  let chars ← joinPairs? units
  some (String.ofList chars, rest)

/-- What follows a word at the start of a text. -/
def afterWord? (word : List Char) (cs : List Char) : Option (List Char) :=
  if word.isPrefixOf cs then some (cs.drop word.length) else none

/-- The token at the start of a text that starts with no blank, and what follows it. -/
def token? (c : Char) (cs : List Char) : Option (Token × List Char) :=
  match c with
  | '[' => some (.beginArray, cs)
  | ']' => some (.endArray, cs)
  | '\x7b' => some (.beginObject, cs)
  | '\x7d' => some (.endObject, cs)
  | ':' => some (.colon, cs)
  | ',' => some (.comma, cs)
  | 'n' => (afterWord? "ull".toList cs).map ((.null, ·))
  | 't' => (afterWord? "rue".toList cs).map ((.bool true, ·))
  | 'f' => (afterWord? "alse".toList cs).map ((.bool false, ·))
  | '"' => (stringTail? cs).map fun r => (.str r.1, r.2)
  | _ => do
    let (literal, rest) ← Number.scan (c :: cs)
    let n ← literal.value
    some (.num n, rest)

theorem length_stringUnits? {cs rest : List Char} {units : List StringUnit}
    (h : stringUnits? cs = some (units, rest)) : rest.length < cs.length := by
  fun_induction stringUnits? cs generalizing units rest with
  | case1 => simp at h
  | case2 r => simp_all
  | case3 => simp at h
  | case4 a b c d cs ih =>
    simp only [Option.bind_eq_bind, Option.bind_eq_some_iff, Option.some.injEq, Prod.mk.injEq,
      Prod.exists] at h
    obtain ⟨_, _, _, _, hr, _, rfl⟩ := h
    have := ih hr
    simp only [List.length_cons]; omega
  | case5 => simp at h
  | case6 e cs he ih =>
    simp only [Option.bind_eq_bind, Option.bind_eq_some_iff, Option.some.injEq, Prod.mk.injEq,
      Prod.exists] at h
    obtain ⟨_, _, _, _, hr, _, rfl⟩ := h
    have := ih hr
    simp only [List.length_cons]; omega
  | case7 => simp at h
  | case8 c cs _ _ _ _ ih =>
    simp only [Option.map_eq_some_iff, Prod.mk.injEq, Prod.exists] at h
    obtain ⟨_, _, hr, _, rfl⟩ := h
    have := ih hr
    simp only [List.length_cons]; omega

theorem length_afterWord? {word cs rest : List Char} (h : afterWord? word cs = some rest) :
    rest.length ≤ cs.length := by
  unfold afterWord? at h
  split at h
  · simp only [Option.some.injEq] at h
    rw [← h, List.length_drop]; omega
  · simp at h

/-- A token takes at least one character. -/
theorem length_token? {c : Char} {cs rest : List Char} {t : Token}
    (h : token? c cs = some (t, rest)) : rest.length ≤ cs.length := by
  unfold token? at h
  split at h
  case h_7 | h_8 | h_9 =>
    simp only [Option.map_eq_some_iff, Prod.mk.injEq] at h
    obtain ⟨_, hw, _, rfl⟩ := h
    exact length_afterWord? hw
  case h_10 =>
    simp only [Option.map_eq_some_iff, Prod.mk.injEq] at h
    obtain ⟨_, hw, _, rfl⟩ := h
    simp only [stringTail?, Option.bind_eq_bind, Option.bind_eq_some_iff, Prod.exists,
      Option.some.injEq] at hw
    obtain ⟨_, _, hs, _, _, rfl⟩ := hw
    exact Nat.le_of_lt (length_stringUnits? hs)
  case h_11 =>
    simp only [Option.bind_eq_bind, Option.bind_eq_some_iff, Prod.exists, Option.some.injEq,
      Prod.mk.injEq] at h
    obtain ⟨_, _, hs, _, _, _, rfl⟩ := h
    have := Number.length_scan hs
    simp only [List.length_cons] at this; omega
  all_goals simp_all

/-- All tokens of a text, in order. -/
def tokens? : List Char → Option (List Token)
  | [] => some []
  | c :: cs =>
    if isJsonBlank c then tokens? cs
    else
      match h : token? c cs with
      | none => none
      | some (t, rest) =>
        have := length_token? h
        (tokens? rest).map (t :: ·)
termination_by cs => cs.length

end DocTable.Json
