import DocTable.Proofs.Registry.Flattening
import DocTable.Proofs.Sql.Definition
import DocTable.Proofs.Statement.Names
import DocTable.Table.Basic

/-!
# What creating a table defines

The text that creates a table is read for its columns. It defines one for each field, in
order, its only primary key is the key column, and it names nothing else than the table and
these columns (`defines_of_ofSchema`).
-/

namespace DocTable
set_option autoImplicit false
open Sql (Definition lexemes lastMode isSeparator)

namespace Sql

theorem names_passed {ls : List Lexeme} (passed : ls.all Definition.passes = true) :
    names ls = [] := by
  refine names_eq_nil fun l mem => ?_
  have here := List.all_eq_true.mp passed l mem
  simp only [Definition.passes, Bool.and_eq_true, decide_eq_true_eq] at here
  exact here.1

end Sql

namespace Dialect

/-! ## One column -/

/-- A column's type with the blank before it. -/
def typeText (d : Dialect) (f : Field) : String := " " ++ d.columnType f

/-- What a column is, after its type. -/
def roleText (f : Field) : String :=
  if f.isPrimaryKey then " PRIMARY KEY"
  else (if f.isUnique then " UNIQUE" else "") ++ (if f.isRequired then " NOT NULL" else "")

theorem columnDefinition_eq (d : Dialect) (f : Field) :
    d.columnDefinition f = d.quoteName f.key ++ (d.typeText f ++ roleText f) := by
  unfold columnDefinition typeText roleText
  apply String.toList_inj.mp
  cases f.isPrimaryKey <;> cases f.isUnique <;> cases f.isRequired <;> simp

section Backend

variable (b : Backend)

/-- Text that the reader passes over: it holds no column, and leaves no quote open. -/
structure Passed (cs : List Char) : Prop where
  passes : (lexemes b.dialect cs).all Definition.passes = true
  closed : (lastMode b.dialect cs).isClosed = true

variable {b}

theorem Passed.of_single {mode : Sql.Mode} {cs : List Char} (single : Sql.Single b.dialect mode cs)
    (passes : Definition.passes ⟨mode, cs⟩ = true) (closed : mode.isClosed = true) :
    Passed b cs := by
  constructor
  · rw [single.lexemes, List.all_cons, passes]
    rfl
  · rw [single.lastMode, closed]

theorem Passed.append {front back : List Char} (hf : Passed b front) (hb : Passed b back)
    (separated : ∀ c ∈ back.head?, isSeparator c = true) : Passed b (front ++ back) := by
  refine ⟨?_, Sql.isClosed_separated hf.closed separated hb.closed⟩
  rw [Sql.lexemes_separated hf.closed separated, List.all_append, hf.passes, hb.passes]
  rfl

theorem Passed.tight_append {front back : List Char} (hf : Passed b front)
    (tight : (lastMode b.dialect front).isTight = true) (hb : Passed b back) :
    Passed b (front ++ back) := by
  refine ⟨?_, Sql.isClosed_tight tight hb.closed⟩
  rw [Sql.lexemes_tight tight, List.all_append, hf.passes, hb.passes]
  rfl

variable (b)

theorem passed_typeText (f : Field) : Passed b (b.dialect.typeText f).toList := by
  unfold typeText columnType
  cases f.type with
  | text =>
    have length : Passed b (toString f.textLength).toList := by
      rw [show (toString f.textLength).toList = Nat.toDigits 10 f.textLength by simp]
      exact .of_single (Sql.single_natural b f.textLength) rfl rfl
    have close : Passed b ")".toList := by cases b <;> exact ⟨rfl, rfl⟩
    have opened : Passed b (" " ++ b.dialect.types.text ++ "(").toList ∧
        (lastMode b.dialect (" " ++ b.dialect.types.text ++ "(").toList).isTight = true := by
      cases b <;> refine ⟨⟨?_, ?_⟩, ?_⟩ <;> decide +kernel
    have text := opened.1.tight_append opened.2 (length.append close (by simp [isSeparator]))
    simpa using text
  | number | double | boolean | blob =>
    dsimp only
    cases b <;> constructor <;> decide +kernel

theorem passed_roleText {f : Field} (notKey : f.isPrimaryKey = false) :
    Passed b (roleText f).toList := by
  unfold roleText
  rw [notKey]
  cases f.isUnique <;> cases f.isRequired <;> cases b <;> constructor <;> decide +kernel

theorem separated_roleText (f : Field) : ∀ c ∈ (roleText f).toList.head?, isSeparator c = true := by
  unfold roleText
  cases f.isPrimaryKey <;> cases f.isUnique <;> cases f.isRequired <;> simp [isSeparator]

theorem closed_roleText (f : Field) :
    (lastMode b.dialect (roleText f).toList).isClosed = true := by
  cases key : f.isPrimaryKey with
  | false => exact (passed_roleText b key).closed
  | true =>
    rw [roleText, key, if_pos rfl]
    cases b <;> decide

/-- A column's definition begins with its name. -/
theorem lexemes_columnDefinition (f : Field) :
    lexemes b.dialect (b.dialect.columnDefinition f).toList =
        Sql.nameLexeme b.dialect f.key ::
          (lexemes b.dialect (b.dialect.typeText f).toList ++
            lexemes b.dialect (roleText f).toList) ∧
      (lastMode b.dialect (b.dialect.columnDefinition f).toList).isClosed = true := by
  have name := Sql.single_quoteName b.dialect f.key
  have nameClosed : (lastMode b.dialect (b.dialect.quoteName f.key).toList).isClosed = true := by
    rw [name.lastMode]
    rfl
  have type := passed_typeText b f
  have separated : ∀ c ∈ ((b.dialect.typeText f).toList ++ (roleText f).toList).head?,
      isSeparator c = true := by
    simp [typeText, isSeparator]
  have described := Sql.isClosed_separated type.closed (separated_roleText f) (closed_roleText b f)
  rw [columnDefinition_eq, String.toList_append, String.toList_append]
  refine ⟨?_, Sql.isClosed_separated nameClosed separated described⟩
  rw [Sql.lexemes_separated nameClosed separated,
    Sql.lexemes_separated type.closed (separated_roleText f), name.lexemes, Sql.toList_quoteName]
  rfl

/-- The names of the columns that are the key. -/
def keyNames (d : Dialect) (fields : List Field) : List String :=
  (fields.filter Field.isPrimaryKey).map fun f => d.quoteName f.key

theorem lexemes_keyRole : lexemes b.dialect " PRIMARY KEY".toList =
    [⟨.blank, [' ']⟩, Sql.primary, ⟨.blank, [' ']⟩, Sql.key] := by
  cases b <;> decide

theorem read_roleText (f : Field) (r : Definition) :
    ∃ p, r.read (lexemes b.dialect (roleText f).toList) =
      { previous := p
        columns := r.columns
        primaryKeys :=
          if f.isPrimaryKey then r.primaryKeys ++ [r.columns.getLastD ""] else r.primaryKeys } := by
  cases key : f.isPrimaryKey with
  | false =>
    obtain ⟨p, read⟩ := Definition.read_passed (passed_roleText b key).passes r
    exact ⟨p, read⟩
  | true =>
    refine ⟨some Sql.key, ?_⟩
    rw [roleText, key, if_pos rfl, lexemes_keyRole]
    rfl

theorem read_columnDefinition (f : Field) {r : Definition} (isOpen : r.isOpen = true) :
    ∃ p, r.read (lexemes b.dialect (b.dialect.columnDefinition f).toList) =
      ⟨p, r.columns ++ [b.dialect.quoteName f.key],
        r.primaryKeys ++ b.dialect.keyNames [f]⟩ := by
  obtain ⟨p, type⟩ := Definition.read_passed (passed_typeText b f).passes
    (r.next (Sql.nameLexeme b.dialect f.key))
  obtain ⟨q, role⟩ := read_roleText b f
    ((r.next (Sql.nameLexeme b.dialect f.key)).read
      (lexemes b.dialect (b.dialect.typeText f).toList))
  refine ⟨q, ?_⟩
  rw [(lexemes_columnDefinition b f).1]
  show (r.next (Sql.nameLexeme b.dialect f.key)).read _ = _
  rw [Definition.read_append, role, type, Definition.next_name, isOpen]
  cases key : f.isPrimaryKey <;> simp [keyNames, key]

theorem names_columnDefinition (f : Field) :
    Sql.names (lexemes b.dialect (b.dialect.columnDefinition f).toList) =
      [b.dialect.quoteName f.key] := by
  have role : Sql.names (lexemes b.dialect (roleText f).toList) = [] := by
    cases key : f.isPrimaryKey with
    | false => exact Sql.names_passed (passed_roleText b key).passes
    | true =>
      rw [roleText, key, if_pos rfl, lexemes_keyRole]
      rfl
  have described : Sql.names (lexemes b.dialect (b.dialect.typeText f).toList ++
      lexemes b.dialect (roleText f).toList) = [] := by
    rw [Sql.names_append, Sql.names_passed (passed_typeText b f).passes, role]
    rfl
  rw [(lexemes_columnDefinition b f).1, ← Sql.text_nameLexeme]
  exact congrArg (List.cons _) described

/-! ## The columns -/

def definitionsText (d : Dialect) (fields : List Field) : String :=
  ", ".intercalate (fields.map d.columnDefinition)

theorem definitionsText_singleton (d : Dialect) (f : Field) :
    d.definitionsText [f] = d.columnDefinition f :=
  String.intercalate_singleton

theorem definitionsText_cons (d : Dialect) (f g : Field) (fields : List Field) :
    (d.definitionsText (f :: g :: fields)).toList =
      (d.columnDefinition f).toList ++
        (", ".toList ++ (d.definitionsText (g :: fields)).toList) := by
  simp [definitionsText]

theorem separated_comma (cs : List Char) :
    ∀ c ∈ (", ".toList ++ cs).head?, isSeparator c = true := by
  simp [isSeparator]

theorem tight_comma : (lastMode b.dialect ", ".toList).isTight = true := by
  cases b <;> decide

theorem lexemes_definitionsText (f g : Field) (fields : List Field) :
    lexemes b.dialect (b.dialect.definitionsText (f :: g :: fields)).toList =
      lexemes b.dialect (b.dialect.columnDefinition f).toList ++
        ([Sql.comma, ⟨.blank, [' ']⟩] ++
          lexemes b.dialect (b.dialect.definitionsText (g :: fields)).toList) := by
  have comma : lexemes b.dialect ", ".toList = [Sql.comma, ⟨.blank, [' ']⟩] := by
    cases b <;> decide
  rw [definitionsText_cons, Sql.lexemes_separated (lexemes_columnDefinition b f).2
    (separated_comma _), Sql.lexemes_tight (tight_comma b), comma]

theorem closed_definitionsText (fields : List Field) :
    (lastMode b.dialect (b.dialect.definitionsText fields).toList).isClosed = true := by
  induction fields with
  | nil => rfl
  | cons f fields ih =>
    have first := (lexemes_columnDefinition b f).2
    cases fields with
    | nil => rwa [definitionsText_singleton]
    | cons g fields =>
      rw [definitionsText_cons]
      exact Sql.isClosed_separated first (separated_comma _)
        (Sql.isClosed_tight (tight_comma b) ih)

theorem keyNames_cons (d : Dialect) (f : Field) (fields : List Field) :
    d.keyNames (f :: fields) = d.keyNames [f] ++ d.keyNames fields := by
  rw [keyNames, ← List.singleton_append, List.filter_append, List.map_append]
  rfl

theorem read_definitionsText (fields : List Field) {r : Definition} (isOpen : r.isOpen = true) :
    ∃ p, r.read (lexemes b.dialect (b.dialect.definitionsText fields).toList) =
      ⟨p, r.columns ++ fields.map fun f => b.dialect.quoteName f.key,
        r.primaryKeys ++ b.dialect.keyNames fields⟩ := by
  induction fields generalizing r with
  | nil => exact ⟨r.previous, by simp [definitionsText, keyNames, lexemes, Definition.read]⟩
  | cons f fields ih =>
    cases fields with
    | nil =>
      rw [definitionsText_singleton]
      exact read_columnDefinition b f isOpen
    | cons g fields =>
      -- The comma begins the next item, so the reader stands as it stood before this one.
      obtain ⟨p, first⟩ := read_columnDefinition b f isOpen
      obtain ⟨q, rest⟩ := ih (r := { r with
        previous := some Sql.comma
        columns := r.columns ++ [b.dialect.quoteName f.key]
        primaryKeys := r.primaryKeys ++ b.dialect.keyNames [f] }) rfl
      refine ⟨q, ?_⟩
      rw [lexemes_definitionsText, Definition.read_append, Definition.read_append, first]
      refine rest.trans ?_
      rw [keyNames_cons _ f (g :: fields)]
      simp

theorem names_definitionsText (fields : List Field) :
    Sql.names (lexemes b.dialect (b.dialect.definitionsText fields).toList) =
      fields.map fun f => b.dialect.quoteName f.key := by
  induction fields with
  | nil => rfl
  | cons f fields ih =>
    cases fields with
    | nil =>
      rw [definitionsText_singleton]
      exact names_columnDefinition b f
    | cons g fields =>
      rw [lexemes_definitionsText, Sql.names_append, Sql.names_append, names_columnDefinition, ih]
      rfl

/-! ## The table -/

/-- What stands before the table's name. -/
def headText (d : Dialect) (table : String) : String :=
  match d.creation with
  | .ifNotExists => "CREATE TABLE IF NOT EXISTS "
  | .guarded =>
    "IF OBJECT_ID(" ++ d.quoteText (d.quoteTable table) ++ ", N'U') IS NULL CREATE TABLE "
  | .always => "CREATE TABLE "

theorem createTableFor_eq (table : String) (fields : List Field) :
    (b.dialect.createTableFor table fields).toList =
      (b.dialect.headText table).toList ++ ((b.dialect.quoteTable table).toList ++
        (" (".toList ++ ((b.dialect.definitionsText fields).toList ++ ")".toList))) := by
  rw [createTableFor, createTable, headText, definitionsText]
  generalize ", ".intercalate (fields.map b.dialect.columnDefinition) = columns
  cases b with
  | postgres | mysql | oracle => simp [Backend.dialect, postgres, mysql, oracle]
  | mssql =>
    simp [Backend.dialect, mssql, quoteText, TextQuoting.quoteChars, Quoting.apostrophe]

/-- Text that a name may follow that is no column. -/
structure Heads (cs : List Char) : Prop extends Passed b cs where
  tight : (lastMode b.dialect cs).isTight = true
  notOpen : ∀ r : Definition, (r.read (lexemes b.dialect cs)).isOpen = false

variable {b}

/-- Text whose last word stands before a blank. -/
theorem Heads.of_last {cs : List Char} {l : Sql.Lexeme} (passed : Passed b cs)
    (tight : (lastMode b.dialect cs).isTight = true)
    (last : ((lexemes b.dialect cs).filter fun l => l.mode ≠ .blank).getLast? = some l)
    (word : l.mode = .word) : Heads b cs := by
  have notOpening : l ≠ Sql.opening := fun same => by cases same ▸ word
  have notComma : l ≠ Sql.comma := fun same => by cases same ▸ word
  refine ⟨passed, tight, fun r => ?_⟩
  rw [Definition.isOpen, Definition.previous_read, last]
  simp [notOpening, notComma]

theorem Heads.after {front back : List Char} (hb : Heads b back) (hf : Passed b front)
    (nonempty : back ≠ []) (separated : ∀ c ∈ back.head?, isSeparator c = true) :
    Heads b (front ++ back) := by
  refine ⟨hf.append hb.toPassed separated, ?_, fun r => ?_⟩
  · rw [Sql.lastMode_append nonempty
      fun c first => Sql.extend?_separator (separated c first) b hf.closed]
    exact hb.tight
  · rw [Sql.lexemes_separated hf.closed separated, Definition.read_append]
    exact hb.notOpen _

variable (b)

theorem heads_headText (table : String) : Heads b (b.dialect.headText table).toList := by
  cases b with
  | postgres | mysql =>
    show Heads _ "CREATE TABLE IF NOT EXISTS ".toList
    exact .of_last (l := ⟨.word, "EXISTS".toList⟩) ⟨by decide, by decide⟩ (by decide) (by decide)
      rfl
  | oracle =>
    show Heads _ "CREATE TABLE ".toList
    exact .of_last (l := ⟨.word, "TABLE".toList⟩) ⟨by decide, by decide⟩ (by decide) (by decide)
      rfl
  | mssql =>
    have guard : Passed .mssql "IF OBJECT_ID(".toList := ⟨by decide, by decide⟩
    have text : Passed .mssql
        (Backend.mssql.dialect.quoteText (Backend.mssql.dialect.quoteTable table)).toList :=
      .of_single (Sql.single_quoteText .mssql (Backend.mssql.dialect.quoteTable table)) rfl rfl
    have create : Heads .mssql ", N'U') IS NULL CREATE TABLE ".toList :=
      .of_last (l := ⟨.word, "TABLE".toList⟩) ⟨by decide, by decide⟩ (by decide) (by decide) rfl
    have all :=
      create.after (guard.tight_append (by decide) text) (by decide) (by simp [isSeparator])
    rwa [← String.toList_append, ← String.toList_append] at all

theorem lexemes_createTableFor (table : String) (fields : List Field) :
    lexemes b.dialect (b.dialect.createTableFor table fields).toList =
      lexemes b.dialect (b.dialect.headText table).toList ++
        (Sql.tableLexemes b.dialect (Text.split '.' table) ++
          ([⟨.blank, [' ']⟩, Sql.opening] ++
            (lexemes b.dialect (b.dialect.definitionsText fields).toList ++ [Sql.closing]))) := by
  obtain ⟨name, nameEnd⟩ := Sql.lexemes_quoteTable b table
  have nameClosed : (lastMode b.dialect (b.dialect.quoteTable table).toList).isClosed = true := by
    rw [nameEnd]
    rfl
  have opened : lexemes b.dialect " (".toList = [⟨.blank, [' ']⟩, Sql.opening] ∧
      (lastMode b.dialect " (".toList).isTight = true := by
    cases b <;> decide
  have close : lexemes b.dialect ")".toList = [Sql.closing] := by cases b <;> decide
  rw [createTableFor_eq, Sql.lexemes_tight (heads_headText b table).tight,
    Sql.lexemes_separated nameClosed (by simp [isSeparator]), name, Sql.lexemes_tight opened.2,
    opened.1, Sql.lexemes_separated (closed_definitionsText b fields) (by simp [isSeparator]),
    close]

/-- The reader finds the columns, and the key column with its role. -/
theorem ofText_createTableFor (table : String) (fields : List Field) :
    ∃ p, Definition.ofText b.dialect (b.dialect.createTableFor table fields) =
      ⟨p, fields.map fun f => b.dialect.quoteName f.key, b.dialect.keyNames fields⟩ := by
  have head := heads_headText b table
  have notOpen := head.notOpen Definition.empty
  obtain ⟨p, first⟩ := Definition.read_passed head.passes Definition.empty
  rw [first] at notOpen
  obtain ⟨q, name⟩ := Definition.read_table b.dialect (Text.split '.' table) notOpen
  have opened : (Definition.read ⟨q, [], []⟩ [⟨.blank, [' ']⟩, Sql.opening]) =
      ⟨some Sql.opening, [], []⟩ := rfl
  obtain ⟨p', columns⟩ := read_definitionsText b fields (r := ⟨some Sql.opening, [], []⟩) rfl
  have closingPasses : [Sql.closing].all Definition.passes = true := by decide
  obtain ⟨q', close⟩ := Definition.read_passed closingPasses
    ⟨p', fields.map fun f => b.dialect.quoteName f.key, b.dialect.keyNames fields⟩
  refine ⟨q', ?_⟩
  rw [Definition.ofText, lexemes_createTableFor]
  simp only [Definition.read_append]
  rw [first, name]
  show (((Definition.read ⟨q, [], []⟩ _).read _).read _) = _
  rw [opened, columns]
  exact close

theorem names_createTableFor (table : String) (fields : List Field) :
    Sql.quotedNames b.dialect (b.dialect.createTableFor table fields) =
      b.dialect.quoteParts table ++ fields.map fun f => b.dialect.quoteName f.key := by
  have head := Sql.names_passed (heads_headText b table).passes
  have opened : Sql.names [⟨.blank, [' ']⟩, Sql.opening] = [] := rfl
  have close : Sql.names [Sql.closing] = [] := rfl
  rw [Sql.quotedNames, lexemes_createTableFor]
  simp only [Sql.names_append, head, opened, close, Sql.names_tableLexemes, names_definitionsText,
    List.nil_append, List.append_nil]
  rfl

end Backend
end Dialect

namespace Table

/-- What is read of the text that creates a table. -/
def definition (t : Table) : Definition :=
  .ofText t.config.dialect t.createTableStatement.sql

/-- The text that creates a table defines one column for each field, in order and under the
field's quoted key, and one primary key, which is the key column. It names nothing else but
the table. -/
structure Defines (t : Table) : Prop where
  columns : t.definition.columns = t.registry.keys.map t.config.dialect.quoteName
  distinct : t.definition.columns.Nodup
  primaryKeys : t.definition.primaryKeys = [t.config.dialect.quoteName Field.primaryKeyName]
  names : Sql.quotedNames t.config.dialect t.createTableStatement.sql =
    t.config.dialect.quoteParts t.name ++ t.definition.columns

theorem columns_definition (t : Table) :
    t.definition.columns = t.registry.keys.map t.config.dialect.quoteName := by
  obtain ⟨p, read⟩ := Dialect.ofText_createTableFor t.config.backend t.name t.registry.fields
  rw [Registry.keys, List.map_map]
  exact congrArg Definition.columns read

theorem registry_of_ofSchema {name : String} {schema : Json} {config : Config} {t : Table}
    (ok : ofSchema name schema config = .ok t) : Registry.ofSchema schema = .ok t.registry := by
  obtain ⟨⟨⟩, -, ok⟩ := Except.ok_bind.mp ok
  obtain ⟨r, described, ok⟩ := Except.ok_bind.mp ok
  obtain rfl := Except.ok.inj ok
  exact Except.ok_mapError.mp described

theorem defines_of_ofSchema {name : String} {schema : Json} {config : Config} {t : Table}
    (ok : ofSchema name schema config = .ok t) : t.Defines := by
  have described := registry_of_ofSchema ok
  obtain ⟨root, -, reference⟩ := Registry.isReference_of_ofSchema described
  have columns := columns_definition t
  refine ⟨columns, ?_, ?_, ?_⟩
  · rw [columns]
    exact (Registry.wellFormed_ofSchema described).nodup.map (Dialect.quoteName_injective _)
  · obtain ⟨p, read⟩ := Dialect.ofText_createTableFor t.config.backend t.name t.registry.fields
    refine (congrArg Definition.primaryKeys read).trans ?_
    rw [Dialect.keyNames, reference.primaryKey]
    rfl
  · rw [columns, Registry.keys, List.map_map]
    exact Dialect.names_createTableFor t.config.backend t.name t.registry.fields

end Table
end DocTable
