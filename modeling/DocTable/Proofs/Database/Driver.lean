import DocTable.Database.Column
import DocTable.Dialect.Basic

/-!
# Drivers and servers

What lies behind an executor, with nothing said of how it works: a server that keeps what is
bound for its columns, and a driver that reports the types of columns by name and decodes
cells. A faithful one (`Driver.Faithful`) reports the types of definitions under their
documented names, takes values of the documented type, and decodes a value to the type that it
was bound with. To any other type it may decode it or not.
-/

namespace DocTable.Database
set_option autoImplicit false

/-- Whose statements a product is sent. -/
def Product.backend : Product → Backend
  | .postgres => .postgres
  | .mysql => .mysql

/-- A driver with the server behind it, whose cells have some form. -/
structure Driver (κ : Type) where
  /-- The name under which a column of a declared type is reported. -/
  reports : String → String
  /-- Whether values of a type can be bound for a column of a declared type. -/
  accepts : String → DriverType → Bool
  /-- The cell of a column of a declared type that a bound value was written to; none when the
  value is refused. -/
  store : String → (type : DriverType) → type.Value → Option κ
  null : κ
  /-- Decodes a cell of a column whose type is reported under a name. -/
  decode : String → κ → Decoder

/-- The types of definitions as the products document them: a declared type, the name under
which its columns are reported, and the driver's type for their values. -/
inductive Product.Documents : Product → (declared name : String) → DriverType → Prop where
  | varchar {p : Product} (n : Nat) : Documents p ("VARCHAR(" ++ toString n ++ ")") "VARCHAR" .text
  | int8 : Documents .postgres "BIGINT" "INT8" .int64
  | float8 : Documents .postgres "DOUBLE PRECISION" "FLOAT8" .double
  | bool : Documents .postgres "BOOLEAN" "BOOL" .bool
  | text : Documents .postgres "TEXT" "TEXT" .text
  | bigint : Documents .mysql "BIGINT" "BIGINT" .int64
  | double : Documents .mysql "DOUBLE" "DOUBLE" .double
  | boolean : Documents .mysql "BOOLEAN" "BOOLEAN" .bool
  | longtext : Documents .mysql "LONGTEXT" "LONGTEXT" .text

namespace Driver

variable {κ : Type} (d : Driver κ)

/-- What is relied on of a driver and its server. -/
structure Faithful (p : Product) : Prop where
  reported : ∀ {declared name type}, p.Documents declared name type → d.reports declared = name
  accepted : ∀ {declared name type}, p.Documents declared name type →
    d.accepts declared type = true
  /-- A bound value that is kept is decoded to the type that it was bound with. -/
  kept : ∀ {declared name type}, p.Documents declared name type → ∀ (value : type.Value) cell,
    d.store declared type value = some cell → d.decode name cell type = some (some value)
  /-- NULL is decoded to every type. -/
  null : ∀ name type, d.decode name d.null type = some none

/-- The cells that hold a value in a column of a declared type. NULL is a word of the statement,
and every other value is bound. -/
inductive Holds (declared : String) : SqlValue → κ → Prop where
  | null : Holds declared .null d.null
  | bound {x : SqlValue} {type : DriverType} {value : type.Value} {cell : κ} :
      Bound.of x = ⟨type, some value⟩ → d.store declared type value = some cell →
      Holds declared x cell

/-- A cell of a column of a declared type, as JSON. -/
def read (p : Product) (declared : String) (cell : κ) : Json :=
  Decoder.columnValue (d.decode (d.reports declared) cell) p (.of p (d.reports declared))

end Driver
end DocTable.Database
