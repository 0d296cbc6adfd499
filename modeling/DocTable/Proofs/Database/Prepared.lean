import DocTable.Database.Cell
import DocTable.Proofs.Database.Driver

/-!
# The driver of prepared replies

Cells of prepared replies, as a server would fill them: a column takes the values that it is
decoded to, a text only as long as the column is. The driver is faithful
(`Prepared.faithful_driver`).
-/

namespace DocTable.Database.Prepared
set_option autoImplicit false

/-- A declared type without its length. -/
def unsized (declared : String) : String :=
  String.ofList (declared.toList.takeWhile (· ≠ '('))

/-- The length that a declared type has. -/
def length? (declared : String) : Option Nat :=
  match declared.toList.dropWhile (· ≠ '(') with
  | [] => none
  | _ :: length => some (Decimal.natOfDigits (length.takeWhile Char.isDigit))

/-- The name that a product reports a type under. -/
def typeName (p : Product) (type : String) : String :=
  match p, type with
  | .postgres, "BIGINT" => "INT8"
  | .postgres, "DOUBLE PRECISION" => "FLOAT8"
  | .postgres, "BOOLEAN" => "BOOL"
  | _, name => name

def reports (p : Product) (declared : String) : String := typeName p (unsized declared)

def accepts (p : Product) (declared : String) (type : DriverType) : Bool :=
  (type.names p).contains (reports p declared)

/-- The cell of a bound value. One product keeps a truth value as a number of one digit. -/
def cell? (p : Product) : (type : DriverType) → type.Value → Option Cell
  | .bool, b => match p with
    | .postgres => some (.bool b)
    | .mysql => some (.int (if b then 1 else 0))
  | .int64, i => some (.int i.toInt)
  | .double, x => some (.double x)
  | .text, s => some (.text s)
  | _, _ => none

/-- Whether a value is not longer than its column. -/
def hasRoom (declared : String) : (type : DriverType) → type.Value → Bool
  | .text, s => match length? declared with
    | some n => s.length ≤ n
    | none => true
  | _, _ => true

def store (p : Product) (declared : String) (type : DriverType) (value : type.Value) :
    Option Cell :=
  if accepts p declared type && hasRoom declared type value then cell? p type value else none

def driver (p : Product) : Driver Cell where
  reports := reports p
  accepts := accepts p
  store := store p
  null := .null
  decode := Cell.decode p

theorem unsized_varchar (length : String) : unsized ("VARCHAR(" ++ length) = "VARCHAR" := by
  have name : (("VARCHAR(" ++ length).toList.takeWhile (· ≠ '(')) = "VARCHAR".toList := by
    simp [String.toList_append]
  rw [unsized, name, String.ofList_toList]

variable {p : Product} {declared name : String} {type : DriverType}

theorem reports_of_documents (documented : p.Documents declared name type) :
    reports p declared = name := by
  cases documented with
  | varchar n =>
    rw [reports, String.append_assoc, unsized_varchar]
    cases p <;> rfl
  | _ => decide +kernel

theorem mem_names_of_documents (documented : p.Documents declared name type) :
    (type.names p).contains name = true := by
  cases documented with
  | varchar n => cases p <;> rfl
  | _ => rfl

/-- The cell of a value is decoded to the value. -/
theorem value?_of_cell? {value : type.Value} {cell : Cell} (made : cell? p type value = some cell) :
    cell ≠ .null ∧ cell.value? type = some value := by
  cases type with
  | bool =>
    cases p with
    | postgres =>
      cases made
      exact ⟨nofun, rfl⟩
    | mysql =>
      cases made
      cases value <;> exact ⟨nofun, rfl⟩
  | int64 =>
    cases made
    exact ⟨nofun, congrArg some (Int64.ofInt_toInt value)⟩
  | double | text =>
    cases made
    exact ⟨nofun, rfl⟩
  | _ => cases made

theorem faithful_driver (p : Product) : (driver p).Faithful p where
  reported := reports_of_documents
  accepted := by
    intro declared name type documented
    show (type.names p).contains (reports p declared) = true
    rw [reports_of_documents documented]
    exact mem_names_of_documents documented
  kept := by
    intro declared name type documented value cell kept
    obtain ⟨-, made⟩ := Option.ite_none_right_eq_some.mp kept
    obtain ⟨some, decoded⟩ := value?_of_cell? made
    show Cell.decode p name cell type = _
    rw [Cell.decode, if_neg some, if_pos (mem_names_of_documents documented), decoded]
    rfl
  null := by
    intro name type
    show Cell.decode p name .null type = _
    rw [Cell.decode, if_pos rfl]

end DocTable.Database.Prepared
