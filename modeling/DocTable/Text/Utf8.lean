/-!
# UTF-8

Bytes are read sequence by sequence. A sequence that is broken off or cannot be
continued is invalid as far as it could have been valid, and at least one byte
long; lossy decoding puts one replacement character in its place.
-/

namespace DocTable.Text.Utf8
set_option autoImplicit false

/-- The bytes that may follow a first byte, in ranges, and the bits of the first one. Second
bytes are narrowed where a shorter form or a surrogate could be written. -/
def continuations? (first : Nat) : Option (List (Nat × Nat) × Nat) :=
  let tail := (0x80, 0xBF)
  if first < 0x80 then some ([], first)
  else if first < 0xC2 then none
  else if first < 0xE0 then some ([tail], first - 0xC0)
  else if first = 0xE0 then some ([(0xA0, 0xBF), tail], 0)
  else if first = 0xED then some ([(0x80, 0x9F), tail], 0x0D)
  else if first < 0xF0 then some ([tail, tail], first - 0xE0)
  else if first = 0xF0 then some ([(0x90, 0xBF), tail, tail], 0)
  else if first < 0xF4 then some ([tail, tail, tail], first - 0xF0)
  else if first = 0xF4 then some ([(0x80, 0x8F), tail, tail], 4)
  else none

/-- Reads the bytes of some ranges onto the bits so far: the code point if all are there, and
the bytes that are left. -/
def continued (bits : Nat) : List (Nat × Nat) → List UInt8 → Option Nat × List UInt8
  | [], rest => (some bits, rest)
  | _ :: _, [] => (none, [])
  | (low, high) :: ranges, b :: rest =>
    if low ≤ b.toNat ∧ b.toNat ≤ high then
      continued (bits * 64 + (b.toNat - 0x80)) ranges rest
    else (none, b :: rest)

/-- The character at the start of some bytes, none when invalid, and the bytes after it. -/
def next (first : UInt8) (rest : List UInt8) : Option Char × List UInt8 :=
  match continuations? first.toNat with
  | none => (none, rest)
  | some (ranges, bits) =>
    let (code?, rest) := continued bits ranges rest
    (code?.map Char.ofNat, rest)

theorem length_continued_le (bits : Nat) (ranges : List (Nat × Nat)) (bytes : List UInt8) :
    (continued bits ranges bytes).2.length ≤ bytes.length := by
  induction ranges generalizing bits bytes with
  | nil => simp [continued]
  | cons r ranges ih =>
    cases bytes with
    | nil => simp [continued]
    | cons b rest =>
      unfold continued
      split
      · exact Nat.le_trans (ih _ rest) (Nat.le_succ _)
      · simp

theorem length_next_le (first : UInt8) (rest : List UInt8) :
    (next first rest).2.length ≤ rest.length := by
  unfold next
  split
  · exact Nat.le_refl _
  · exact length_continued_le _ _ _

/-- The characters of some bytes, none for each invalid sequence. -/
def decode : List UInt8 → List (Option Char)
  | [] => []
  | first :: rest =>
    have := length_next_le first rest
    (next first rest).1 :: decode (next first rest).2
termination_by bytes => bytes.length

/-- The text of valid bytes. -/
def decode? (bytes : List UInt8) : Option String :=
  ((decode bytes).mapM id).map String.ofList

def replacement : Char := '\ufffd'

/-- The text of any bytes, invalid sequences replaced. -/
def decodeLossy (bytes : List UInt8) : String :=
  String.ofList ((decode bytes).map fun c => c.getD replacement)

end DocTable.Text.Utf8
