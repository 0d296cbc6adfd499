import DocTable.Proofs.Sql.Numbers
import DocTable.Proofs.Table.Definition

/-!
# Lengths of text columns

The text that creates a table is read for its numbers (`Dialect.numbersOf_createTableFor`), of
which the type of a text column has one. It is the declared length when that is a whole number of
32 bits (`Table.lengths_kept`); a longer text gets the default, which is short (`Table.long_title_cut`).
-/

namespace DocTable
set_option autoImplicit false
open Sql (Definition lexemes lastMode isSeparator)

namespace Dialect

variable (b : Backend)

/-! ## One column -/

/-- The numbers in the type of a column. -/
def typeNumbers (d : Dialect) (f : Field) : List Nat :=
  Sql.numbers (lexemes d (d.typeText f).toList)

theorem typeNumbers_of_text {f : Field} (text : f.type = .text) :
    b.dialect.typeNumbers f = [f.textLength] := by
  have opened : Sql.numbers (lexemes b.dialect (" " ++ b.dialect.types.text ++ "(").toList) = [] ∧
      (lastMode b.dialect (" " ++ b.dialect.types.text ++ "(").toList).isTight = true := by
    cases b <;> constructor <;> decide +kernel
  have length := Sql.single_natural b f.textLength
  have closed : (lastMode b.dialect (Nat.toDigits 10 f.textLength)).isClosed = true := by
    rw [length.lastMode]
    rfl
  have close : lexemes b.dialect ")".toList = [Sql.closing] := by cases b <;> decide
  have written : (b.dialect.typeText f).toList =
      (" " ++ b.dialect.types.text ++ "(").toList ++
        (Nat.toDigits 10 f.textLength ++ ")".toList) := by
    simp [typeText, columnType, text]
  rw [typeNumbers, written, Sql.lexemes_tight opened.2,
    Sql.lexemes_separated closed (by simp [isSeparator]), length.lexemes, close,
    Sql.numbers_append, Sql.numbers_append, opened.1, Sql.numbers_natural]
  rfl

theorem numbers_roleText (f : Field) :
    Sql.numbers (lexemes b.dialect (roleText f).toList) = [] := by
  unfold roleText
  cases f.isPrimaryKey <;> cases f.isUnique <;> cases f.isRequired <;> cases b <;> decide +kernel

/-- A column's definition has the numbers of its type only. -/
theorem numbersFrom_columnDefinition (f : Field) {r : Definition} (isOpen : r.isOpen = true) :
    r.numbersFrom (lexemes b.dialect (b.dialect.columnDefinition f).toList) =
      (b.dialect.typeNumbers f).map fun n => (b.dialect.quoteName f.key, n) := by
  have column : (r.next (Sql.nameLexeme b.dialect f.key)).column = b.dialect.quoteName f.key := by
    rw [Definition.next_name, isOpen]
    simp [Definition.column]
  rw [(lexemes_columnDefinition b f).1]
  show [] ++ (r.next (Sql.nameLexeme b.dialect f.key)).numbersFrom _ = _
  rw [Definition.numbersFrom_append, Definition.numbersFrom_passed (passed_typeText b f).passes,
    Definition.numbersFrom_eq_nil (numbers_roleText b f), column]
  simp [typeNumbers]

/-! ## All columns -/

theorem numbersFrom_definitionsText (fields : List Field) {r : Definition}
    (isOpen : r.isOpen = true) :
    r.numbersFrom (lexemes b.dialect (b.dialect.definitionsText fields).toList) =
      fields.flatMap fun f =>
        (b.dialect.typeNumbers f).map fun n => (b.dialect.quoteName f.key, n) := by
  induction fields generalizing r with
  | nil => rfl
  | cons f fields ih =>
    cases fields with
    | nil =>
      rw [definitionsText_singleton, List.flatMap_singleton]
      exact numbersFrom_columnDefinition b f isOpen
    | cons g fields =>
      -- The comma begins the next item, whatever has been read of this one.
      rw [lexemes_definitionsText, Definition.numbersFrom_append, Definition.numbersFrom_append,
        numbersFrom_columnDefinition b f isOpen, Definition.numbersFrom_eq_nil rfl, ih rfl]
      rfl

theorem numbers_headText (table : String) :
    Sql.numbers (lexemes b.dialect (b.dialect.headText table).toList) = [] := by
  cases b with
  | postgres | mysql =>
    show Sql.numbers (lexemes _ "CREATE TABLE IF NOT EXISTS ".toList) = []
    decide
  | oracle =>
    show Sql.numbers (lexemes _ "CREATE TABLE ".toList) = []
    decide
  | mssql =>
    have name := Sql.single_quoteText .mssql (Backend.mssql.dialect.quoteTable table)
    have nameClosed : (lastMode Backend.mssql.dialect
        (Backend.mssql.dialect.quoteText (Backend.mssql.dialect.quoteTable table)).toList).isClosed =
          true := by
      rw [name.lastMode]
      rfl
    have guard : (lastMode Backend.mssql.dialect "IF OBJECT_ID(".toList).isTight = true ∧
        Sql.numbers (lexemes Backend.mssql.dialect "IF OBJECT_ID(".toList) = [] := by decide
    have create : Sql.numbers (lexemes Backend.mssql.dialect
        ", N'U') IS NULL CREATE TABLE ".toList) = [] := by decide
    show Sql.numbers (lexemes _ ("IF OBJECT_ID(" ++ _ ++ ", N'U') IS NULL CREATE TABLE ").toList) = []
    rw [String.toList_append, String.toList_append, List.append_assoc,
      Sql.lexemes_tight (b := .mssql) guard.1,
      Sql.lexemes_separated (b := .mssql) nameClosed (by simp [isSeparator]), name.lexemes,
      Sql.numbers_append, Sql.numbers_append, guard.2, create]
    rfl

/-- The numbers of the text that creates a table are those of its columns' types. -/
theorem numbersOf_createTableFor (table : String) (fields : List Field) :
    Definition.numbersOf b.dialect (b.dialect.createTableFor table fields) =
      fields.flatMap fun f =>
        (b.dialect.typeNumbers f).map fun n => (b.dialect.quoteName f.key, n) := by
  rw [Definition.numbersOf, lexemes_createTableFor]
  simp only [Definition.numbersFrom_append]
  rw [Definition.numbersFrom_eq_nil (numbers_headText b table),
    Definition.numbersFrom_eq_nil (Sql.numbers_tableLexemes _ _),
    Definition.numbersFrom_eq_nil rfl, numbersFrom_definitionsText b fields rfl,
    Definition.numbersFrom_eq_nil rfl, List.append_nil]
  rfl

end Dialect

/-! ## What is declared -/

namespace Schema

variable {property : Json.Members} {l : Leaf} {f : Field} {n : Nat}

theorem HasType.eq_text {type : ColumnType} (text : HasType property .text)
    (other : HasType property type) : type = .text := by
  obtain ⟨string, notBinary⟩ : property.get? "type" = some (.str "string") ∧ ¬ IsBinary property := by
    cases text with
    | text string notBinary => exact ⟨string, notBinary⟩
  cases other with
  | text _ _ => rfl
  | blob _ binary => exact absurd binary notBinary
  | double typed | number typed | boolean typed =>
    rw [string] at typed
    simp at typed

/-- The length of a text: the declared one, if it is a whole number of 32 bits, and else the
default. -/
structure Leaf.LengthIs (l : Leaf) (n : Nat) : Prop where
  kept : ∀ (m : Nat) stored, l.property.get? "maxLength" = some (.num (.int m stored)) →
    m ≤ Bounds.maxUInt32 → n = m
  default : (∀ (m : Nat) stored, m ≤ Bounds.maxUInt32 →
    l.property.get? "maxLength" ≠ some (.num (.int m stored))) → n = 64

theorem Leaf.IsColumn.lengthIs (column : l.IsColumn f) (text : f.type = .text) :
    l.LengthIs f.textLength := by
  have bounds : Bounds.maxUInt32 ≤ Bounds.maxUInt64 := by decide
  constructor
  · intro m stored declared fits
    have read : (Json.Number.int m stored).toUInt64? = some m := by
      rw [Json.Number.toUInt64?, if_pos (by omega), Int.toNat_natCast]
    have kept := (column.maxLength m).mpr ⟨text, fits, _, declared, read⟩
    rw [Field.textLength, kept, Option.getD_some]
  · intro other
    cases length : f.maxLength with
    | none => rw [Field.textLength, length]; rfl
    | some m =>
      obtain ⟨-, fits, number, declared, read⟩ := (column.maxLength m).mp length
      cases number with
      | double x _ => cases read
      | int i stored =>
        obtain ⟨range, same⟩ := Option.ite_none_right_eq_some.mp read
        obtain rfl := Option.some.inj same
        have same := Int.toNat_of_nonneg range
        refine absurd ?_ (other i.toNat (same.symm ▸ stored) fits)
        simp only [same, declared]

/-- A declared length is kept, and the default stands for no other, just when it fits 32 bits or
is the default itself. -/
theorem Leaf.LengthIs.kept_iff (h : l.LengthIs n) {number : Json.Number} {m : Nat}
    (declared : l.property.get? "maxLength" = some (.num number))
    (whole : number.whole? = some (m : Int)) :
    (m ≤ n ∧ (n = 64 → m = 64)) ↔
      ((∃ stored, number = .int m stored) ∧ m ≤ Bounds.maxUInt32) ∨ m = 64 := by
  by_cases fits : (∃ stored, number = .int m stored) ∧ m ≤ Bounds.maxUInt32
  · obtain ⟨⟨stored, rfl⟩, fits⟩ := fits
    obtain rfl := h.kept m stored declared fits
    simp [fits, stored]
  · have default : n = 64 := by
      refine h.default fun k stored small other => fits ?_
      cases declared.symm.trans other
      cases whole
      exact ⟨⟨stored, rfl⟩, small⟩
    rw [or_iff_right fits, default]
    exact ⟨fun kept => kept.2 rfl, fun same => ⟨same.le, fun _ => same⟩⟩

end Schema

/-- Of values that are listed with their keys, those of one key. -/
theorem map_snd_filter_flatMap {α β : Type} {key : α → String} {values : α → List β} {xs : List α}
    {x : α} (distinct : (xs.map key).Nodup) (mem : x ∈ xs) :
    ((xs.flatMap fun y => (values y).map fun v => (key y, v)).filter fun w =>
      w.1 = key x).map Prod.snd = values x := by
  induction xs with
  | nil => cases mem
  | cons y ys ih =>
    rw [List.map_cons, List.nodup_cons] at distinct
    rw [List.flatMap_cons, List.filter_append, List.map_append]
    rcases List.mem_cons.mp mem with rfl | mem
    · have rest : ((ys.flatMap fun y => (values y).map fun v => (key y, v)).filter fun w =>
          w.1 = key x) = [] := by
        refine List.filter_eq_nil_iff.mpr fun w listed => ?_
        obtain ⟨y, later, valued⟩ := List.mem_flatMap.mp listed
        obtain ⟨v, -, rfl⟩ := List.mem_map.mp valued
        have other : key y ≠ key x := fun same => distinct.1 (same ▸ List.mem_map_of_mem later)
        simpa using other
      rw [rest]
      simp [Function.comp_def, List.filter_map]
    · have first : (((values y).map fun v => (key y, v)).filter fun w => w.1 = key x) = [] := by
        have other : key y ≠ key x := fun same => distinct.1 (same ▸ List.mem_map_of_mem mem)
        simp [List.filter_map, Function.comp_def, other]
      rw [first, ih distinct.2 mem]
      rfl

namespace Table

variable {t : Table}

/-- The numbers that the text that creates a table writes for a column. -/
def writtenFor (t : Table) (key : String) : List Nat :=
  ((Definition.numbersOf t.config.dialect t.createTableStatement.sql).filter
    fun written => written.1 = t.config.dialect.quoteName key).map Prod.snd

theorem writtenFor_of_mem (distinct : t.registry.keys.Nodup) {f : Field}
    (mem : f ∈ t.registry.fields) :
    t.writtenFor f.key = t.config.dialect.typeNumbers f := by
  have all : Definition.numbersOf t.config.dialect t.createTableStatement.sql = _ :=
    Dialect.numbersOf_createTableFor t.config.backend t.name t.registry.fields
  have apart : (t.registry.fields.map fun f => t.config.dialect.quoteName f.key).Nodup := by
    rw [← Function.comp_def t.config.dialect.quoteName Field.key, ← List.map_map]
    exact distinct.map (Dialect.quoteName_injective _)
  rw [writtenFor, all]
  exact map_snd_filter_flatMap apart mem

/-- **Lengths of texts.** The text that creates a table writes one length for every text that the
schema declares, at any depth and in every dialect. It is the declared length if that is a whole
number of 32 bits, and the default if not, which then stands for a length that it is not. -/
theorem lengths_kept {name : String} {schema : Json} {config : Config}
    (ok : ofSchema name schema config = .ok t) :
    ∃ root, schema = .obj root ∧
      ∀ l ∈ Schema.leaves [] root, Schema.HasType l.property .text →
        ∃ n, t.writtenFor l.key = [n] ∧ l.LengthIs n ∧
          ∀ number (m : Nat), l.property.get? "maxLength" = some (.num number) →
            number.whole? = some (m : Int) →
            ((m ≤ n ∧ (n = 64 → m = 64)) ↔
              ((∃ stored, number = .int m stored) ∧ m ≤ Bounds.maxUInt32) ∨ m = 64) := by
  have described := registry_of_ofSchema ok
  obtain ⟨root, rfl, reference⟩ := Registry.isReference_of_ofSchema described
  obtain ⟨columns, whole, each⟩ := reference.fields
  refine ⟨root, rfl, fun l mem text => ?_⟩
  obtain ⟨f, listed, column⟩ := exists_of_forall₂ each mem
  have isText := text.eq_text column.type
  have length := column.lengthIs isText
  refine ⟨f.textLength, ?_, length, fun number m declared => length.kept_iff declared⟩
  rw [← column.key, writtenFor_of_mem (Registry.wellFormed_ofSchema described).nodup
    (whole ▸ List.mem_cons_of_mem _ listed)]
  exact Dialect.typeNumbers_of_text t.config.backend isText

/-- Books with titles of a length. -/
def titles (length : Json.Number) : Json.Members :=
  [("type", .str "string"), ("maxLength", .num length)]

def book (length : Json.Number) : Json.Members :=
  [("type", .str "object"), ("required", .arr []),
    ("properties", .obj [("title", .obj (titles length))])]

def books (length : Json.Number) : Json.Members :=
  [("required", .arr []), ("properties", .obj [("book", .obj (book length))])]

theorem title_mem_leaves (length : Json.Number) :
    ⟨["book"], "title", book length, titles length⟩ ∈ Schema.leaves [] (books length) := by
  have outer : Schema.readProperties [] (books length) = [("book", .obj (book length))] := rfl
  have inner : Schema.readProperties ["book"] (book length) =
      [("title", .obj (titles length))] := rfl
  have level : Schema.IsLevel (book length) := rfl
  have leaf : ¬ Schema.IsLevel (titles length) := by
    intro level
    have same : "string" = "object" := Json.str.inj (Option.some.inj level)
    revert same
    decide
  rw [Schema.leaves_eq, outer, List.flatMap_singleton, Schema.leavesOfProperty, if_pos level,
    Schema.leaves_eq]
  show _ ∈ (Schema.readProperties ["book"] (book length)).flatMap _
  rw [inner, List.flatMap_singleton, Schema.leavesOfProperty, if_neg leaf]
  exact List.mem_singleton_self _

theorem hasType_titles (length : Json.Number) : Schema.HasType (titles length) .text := by
  refine .text rfl ?_
  rintro (format | ⟨v, encoding⟩)
  · cases format
  · cases encoding

/-- The column of the titles. -/
def title (length : Option Nat) : Field :=
  ⟨"book___title", "book.title", .text, false, false, false, length⟩

/-- The greatest length that there is. -/
theorem title_length_kept :
    ∃ t, ofSchema "books" (.obj (books (.int 4294967295))) (.of .oracle) = .ok t ∧
      t.writtenFor "book___title" = [4294967295] := by
  have built : ofSchema "books" (.obj (books (.int 4294967295))) (.of .oracle) =
      .ok ⟨"books", ⟨[title (some 4294967295)]⟩, .of .oracle⟩ := by decide +kernel
  obtain ⟨root, whole, each⟩ := lengths_kept built
  cases whole
  obtain ⟨n, written, length, -⟩ := each _ (title_mem_leaves _) (hasType_titles _)
  obtain rfl := length.kept 4294967295 _ rfl (by decide)
  have key : Schema.Leaf.key ⟨["book"], "title", book (.int 4294967295),
      titles (.int 4294967295)⟩ = "book___title" := by decide +kernel
  exact ⟨_, built, key ▸ written⟩

/-- A title of four billion characters gets a column of sixty-four. -/
theorem long_title_cut :
    ¬ ∀ t, ofSchema "books" (.obj (books (.int 4294967296))) (.of .postgres) = .ok t →
      ∀ l ∈ Schema.leaves [] (books (.int 4294967296)), Schema.HasType l.property .text →
        ∀ (m : Nat) stored, l.property.get? "maxLength" = some (.num (.int m stored)) →
          ∃ n, t.writtenFor l.key = [n] ∧ m ≤ n ∧ (n = 64 → m = 64) := by
  intro kept
  have built : ofSchema "books" (.obj (books (.int 4294967296))) (.of .postgres) =
      .ok ⟨"books", ⟨[title none]⟩, .of .postgres⟩ := by decide +kernel
  obtain ⟨n, written, enough, -⟩ :=
    kept _ built _ (title_mem_leaves _) (hasType_titles _) 4294967296 _ rfl
  have cut : writtenFor ⟨"books", ⟨[title none]⟩, .of .postgres⟩ (Schema.Leaf.key ⟨["book"],
      "title", book (.int 4294967296), titles (.int 4294967296)⟩) = [64] := by
    decide +kernel
  obtain rfl := List.singleton_inj.mp (written.symm.trans cut)
  omega

end Table
end DocTable
