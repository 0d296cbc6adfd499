import DocTable.Text.Split

/-!
# Identifiers

Column keys and table names are written into statements, so only plain words are
accepted: a letter or underscore, then letters, digits and underscores, at most
64 bytes. A table name may carry one schema name before it.
-/

namespace DocTable
set_option autoImplicit false

/-- Why a name is no identifier. -/
inductive IdentifierError where
  | empty
  | tooLong (name : String)
  | malformed (name : String)
  | tooManyQualifiers (name : String)
  deriving DecidableEq, Repr

namespace Identifier

def maxLength : Nat := 64

end Identifier

def IdentifierError.message : IdentifierError → String
  | .empty => "Identifier cannot be empty"
  | .tooLong name =>
    "Identifier '" ++ name ++ "' is longer than " ++ toString Identifier.maxLength ++ " characters."
  | .malformed name =>
    "Identifier '" ++ name ++ "' is invalid. Must start with a letter or underscore and contain " ++
      "only letters, numbers, and underscores."
  | .tooManyQualifiers name => "Table name '" ++ name ++ "' may have at most one schema qualifier."

namespace Identifier

def isFirst (c : Char) : Bool := c.isAlpha || c = '_'

def isRest (c : Char) : Bool := c.isAlphanum || c = '_'

/-- A letter or underscore, then letters, digits and underscores, all of ASCII. -/
def isWord : List Char → Bool
  | [] => false
  | c :: cs => isFirst c && cs.all isRest

def check (name : String) : Except IdentifierError Unit :=
  if name.isEmpty then .error .empty
  else if maxLength < name.utf8ByteSize then .error (.tooLong name)
  else if !isWord name.toList then .error (.malformed name)
  else .ok ()

def checkTable (name : String) : Except IdentifierError Unit :=
  let parts := Text.split '.' name
  if 2 < parts.length then .error (.tooManyQualifiers name)
  else parts.forM check

/-- A name is accepted exactly when it is a word of at most 64 bytes. -/
theorem check_eq_ok_iff {name : String} :
    check name = .ok () ↔ isWord name.toList = true ∧ name.utf8ByteSize ≤ maxLength := by
  by_cases he : name.isEmpty
  · have : name = "" := String.isEmpty_iff.mp he
    subst this
    simp [check, isWord]
  · by_cases hl : maxLength < name.utf8ByteSize
    · simp [check, he, hl, Nat.not_le.mpr hl]
    · have hle : name.utf8ByteSize ≤ maxLength := Nat.not_lt.mp hl
      by_cases hw : isWord name.toList <;> simp [check, he, hl, hw, hle]

end Identifier
end DocTable
