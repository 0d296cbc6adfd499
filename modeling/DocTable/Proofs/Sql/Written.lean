import DocTable.Proofs.Sql.Plain

/-!
# Lexemes of what a dialect writes

A quoted name, a placeholder and a literal are one lexeme each (`Single`), and a
table is its quoted parts with points between them (`lexemes_quoteTable`).
-/

namespace DocTable.Sql
set_option autoImplicit false
open Quoting (apostrophe backslash double escape)

/-! ## Names -/

theorem run?_double_name (d : Dialect) (cs : List Char) :
    run? d .name (double d.closingQuote cs) = some .name := by
  induction cs with
  | nil => rfl
  | cons c cs ih =>
    by_cases h : c = d.closingQuote
    · simp [double, extend?, h, ih]
    · simp [double, extend?, h, ih]

theorem single_quoteNameChars (d : Dialect) (cs : List Char) :
    Single d .nameEnd (d.quoteNameChars cs) := by
  have first : start d d.openingQuote = .name := by simp [start]
  apply Single.of_run first
  show run? d .name (double d.closingQuote cs ++ [d.closingQuote]) = some .nameEnd
  rw [run?_append (run?_double_name d cs)]
  simp [extend?]

/-! ## Texts -/

theorem run?_double_text {d : Dialect} (h : d.texts ≠ .backslash) (cs : List Char) :
    run? d .text (double apostrophe cs) = some .text := by
  induction cs with
  | nil => rfl
  | cons c cs ih =>
    by_cases hc : c = apostrophe
    · simp [double, extend?, hc, ih]
    · simp [double, extend?, hc, h, ih]

theorem run?_escape {d : Dialect} (h : d.texts = .backslash) (cs : List Char) :
    run? d .text (escape cs) = some .text := by
  induction cs with
  | nil => rfl
  | cons c cs ih =>
    rw [escape]
    by_cases hb : c = backslash
    · simp [extend?, h, hb, ih, backslash, apostrophe]
    by_cases ha : c = apostrophe
    · simp [extend?, ha, ih, backslash, apostrophe]
    by_cases hn : c = Quoting.nul
    · simp [extend?, h, hn, ih, backslash, apostrophe, Quoting.nul]
    by_cases hs : c = Quoting.sub
    · simp [extend?, h, hs, ih, backslash, apostrophe, Quoting.nul, Quoting.sub]
    · simp [extend?, hb, ha, hn, hs, ih]

theorem single_quoteText (b : Backend) (s : String) :
    Single b.dialect .textEnd (b.dialect.quoteText s).toList := by
  rw [Dialect.quoteText, String.toList_ofList]
  cases b with
  | postgres | oracle =>
    apply Single.of_run rfl
    show run? _ .text (double apostrophe s.toList ++ [apostrophe]) = some .textEnd
    rw [run?_append (run?_double_text (by decide) s.toList)]
    rfl
  | mysql =>
    apply Single.of_run rfl
    show run? _ .text (escape s.toList ++ [apostrophe]) = some .textEnd
    rw [run?_append (run?_escape rfl s.toList)]
    rfl
  | mssql =>
    apply Single.of_run rfl
    show run? _ .text (double apostrophe s.toList ++ [apostrophe]) = some .textEnd
    rw [run?_append (run?_double_text (by decide) s.toList)]
    rfl

/-! ## Numbers and placeholders -/

/-- A numeral after its first character. -/
def isNumeralChar (c : Char) : Bool := c.isDigit || c = '.'

theorem start_digit (b : Backend) {c : Char} (digit : c.isDigit = true) :
    start b.dialect c = .number := by
  have alnum : c.isAlphanum = true := by simp [Char.isAlphanum, digit]
  have plain : isPlainChar c = true := by simp [isPlainChar, alnum]
  have opening := openingQuote_ne_plain b plain
  have apostrophe := apostrophe_ne_plain plain
  have mark := opensPlaceholder_plain b plain
  have notN : c ≠ 'N' := by
    rintro rfl
    cases digit
  simp [start, opening, apostrophe, mark, notN, digit]

theorem single_number (b : Backend) {c : Char} {cs : List Char}
    (first : c.isDigit = true ∨ c = '-') (rest : ∀ e ∈ cs, isNumeralChar e = true) :
    Single b.dialect .number (c :: cs) := by
  have starts : start b.dialect c = .number := by
    rcases first with digit | rfl
    · exact start_digit b digit
    · cases b <;> decide
  refine Single.of_run starts (run?_of_forall ?_)
  intro e he
  have := rest e he
  simp only [isNumeralChar] at this
  simp [extend?, this]

theorem digits_toDigits (n : Nat) : ∀ c ∈ Nat.toDigits 10 n, c.isDigit = true :=
  fun _ h => Nat.isDigit_of_mem_toDigits (by decide) (by decide) h

theorem single_natural (b : Backend) (n : Nat) :
    Single b.dialect .number (Nat.toDigits 10 n) := by
  cases written : Nat.toDigits 10 n with
  | nil => exact absurd written Nat.toDigits_ne_nil
  | cons c cs =>
    have digits := digits_toDigits n
    rw [written] at digits
    apply single_number b (.inl (digits c List.mem_cons_self))
    intro e he
    simp [isNumeralChar, digits e (List.mem_cons_of_mem c he)]

theorem single_integer (b : Backend) (i : Int) :
    Single b.dialect .number (toString i).toList := by
  cases i with
  | ofNat n =>
    have written : (toString (Int.ofNat n)).toList = Nat.toDigits 10 n := by
      simp [Int.toString_eq_repr, Int.repr]
    rw [written]
    exact single_natural b n
  | negSucc n =>
    have written : (toString (Int.negSucc n)).toList = '-' :: Nat.toDigits 10 (n + 1) := by
      simp [Int.toString_eq_repr, Int.repr]
    rw [written]
    apply single_number b (.inr rfl)
    intro e he
    simp [isNumeralChar, digits_toDigits (n + 1) e he]

theorem toList_placeholder_numbered {d : Dialect} {mark : String}
    (style : d.placeholders = .numbered mark) (k : Nat) :
    (d.placeholder k).toList = mark.toList ++ Nat.toDigits 10 k := by
  simp [Dialect.placeholder, style]

theorem single_numbered {d : Dialect} {mark : String} {m : Char} {more : List Char}
    (style : d.placeholders = .numbered mark) (chars : mark.toList = m :: more)
    (first : start d m = .placeholder) (alnum : more.all Char.isAlphanum = true) (k : Nat) :
    Single d .placeholder (d.placeholder k).toList := by
  rw [toList_placeholder_numbered style, chars]
  refine Single.of_run first (run?_of_forall ?_)
  intro c hc
  have here : c.isAlphanum = true := by
    rcases List.mem_append.mp hc with hc | hc
    · exact List.all_eq_true.mp alnum c hc
    · simp [Char.isAlphanum, digits_toDigits k c hc]
  simp [extend?, extendsPlaceholder, style, here]

theorem single_placeholder (b : Backend) (k : Nat) :
    Single b.dialect .placeholder (b.dialect.placeholder k).toList := by
  cases b with
  | mysql =>
    have first : start Backend.mysql.dialect '?' = .placeholder := by decide
    have chars : (Backend.mysql.dialect.placeholder k).toList = ['?'] := by
      simp [Backend.dialect, Dialect.placeholder, Dialect.mysql]
    rw [chars]
    exact Single.of_run first rfl
  | postgres => exact single_numbered rfl rfl (by decide) (by decide) k
  | mssql => exact single_numbered rfl rfl (by decide) (by decide) k
  | oracle => exact single_numbered rfl rfl (by decide) (by decide) k

/-! ## Literals -/

theorem isNumeralChar_of_isDigit {c : Char} (digit : c.isDigit = true) :
    isNumeralChar c = true := by
  simp [isNumeralChar, digit]

/-- A numeral without a sign: a digit, then digits and points. -/
structure Unsigned (cs : List Char) : Prop where
  all : ∀ c ∈ cs, isNumeralChar c = true
  head : ∃ c ∈ cs.head?, c.isDigit = true

theorem Unsigned.of_digits {ds back : List Char} (nonempty : ds ≠ [])
    (digits : ∀ c ∈ ds, c.isDigit = true) (rest : ∀ c ∈ back, isNumeralChar c = true) :
    Unsigned (ds ++ back) := by
  constructor
  · intro c hc
    rcases List.mem_append.mp hc with hc | hc
    · exact isNumeralChar_of_isDigit (digits c hc)
    · exact rest c hc
  · obtain ⟨d, ds, rfl⟩ := List.exists_cons_of_ne_nil nonempty
    exact ⟨d, rfl, digits d List.mem_cons_self⟩

/-- A decimal that is written without an exponent. -/
theorem unsigned_positionalText (d : Decimal) :
    Unsigned (Decimal.positionalText "" d).toList := by
  have digits := digits_toDigits d.coefficient
  have zero : '0'.isDigit = true := by decide
  cases e : d.exponent with
  | ofNat zeros =>
    have chars : (Decimal.positionalText "" d).toList =
        Nat.toDigits 10 d.coefficient ++ List.replicate zeros '0' := by
      simp [Decimal.positionalText, e]
    rw [chars]
    apply Unsigned.of_digits Nat.toDigits_ne_nil digits
    intro c hc
    rw [List.eq_of_mem_replicate hc]
    exact isNumeralChar_of_isDigit zero
  | negSucc n =>
    by_cases short : n + 1 < (Nat.toDigits 10 d.coefficient).length
    · have chars : (Decimal.positionalText "" d).toList =
          (Nat.toDigits 10 d.coefficient).take
              ((Nat.toDigits 10 d.coefficient).length - (n + 1)) ++
            '.' :: (Nat.toDigits 10 d.coefficient).drop
              ((Nat.toDigits 10 d.coefficient).length - (n + 1)) := by
        simp [Decimal.positionalText, e, short]
      rw [chars]
      refine Unsigned.of_digits ?_ (fun c hc => digits c (List.mem_of_mem_take hc)) ?_
      · intro h
        have := congrArg List.length h
        simp at this
        omega
      · intro c hc
        rcases List.mem_cons.mp hc with rfl | hc
        · rfl
        · exact isNumeralChar_of_isDigit (digits c (List.mem_of_mem_drop hc))
    · have chars : (Decimal.positionalText "" d).toList =
          ['0'] ++ '.' :: (List.replicate (n + 1 - (Nat.toDigits 10 d.coefficient).length) '0' ++
            Nat.toDigits 10 d.coefficient) := by
        simp [Decimal.positionalText, e, short]
      rw [chars]
      apply Unsigned.of_digits (by simp) (by simp)
      intro c hc
      rcases List.mem_cons.mp hc with rfl | hc
      · rfl
      rcases List.mem_append.mp hc with hc | hc
      · rw [List.eq_of_mem_replicate hc]
        exact isNumeralChar_of_isDigit zero
      · exact isNumeralChar_of_isDigit (digits c hc)

theorem single_double (b : Backend) (x : Binary64) :
    Single b.dialect .number (Dialect.doubleLayout.write x).toList := by
  have written := unsigned_positionalText (Decimal.shortest .up x)
  have chars : (Dialect.doubleLayout.write x).toList =
      (if x.isNegative then ['-'] else []) ++
        (Decimal.positionalText "" (Decimal.shortest .up x)).toList := by
    cases h : x.isNegative <;>
      simp [Decimal.Layout.write, Dialect.doubleLayout, Decimal.Layout.isPositional, h]
  rw [chars]
  cases x.isNegative with
  | true => exact single_number b (.inr rfl) written.all
  | false =>
    obtain ⟨c, first, digit⟩ := written.head
    obtain ⟨cs, text⟩ := List.head?_eq_some_iff.mp first
    have rest := written.all
    rw [text] at rest ⊢
    exact single_number b (.inl digit) fun e he => rest e (List.mem_cons_of_mem c he)

/-! ## Literals -/

/-- The mode of a literal's lexeme. -/
def literalMode (d : Dialect) : SqlValue → Mode
  | .null => .word
  | .text _ => .textEnd
  | .integer _ => .number
  | .double x => if x.isFinite then .number else .word
  | .boolean b => lastMode d (d.booleanLiteral b).toList

theorem literalMode_mem (b : Backend) (v : SqlValue) :
    literalMode b.dialect v ∈ [Mode.word, .number, .textEnd] := by
  cases v with
  | null | text s | integer i => simp [literalMode]
  | double x =>
    rw [literalMode]
    split <;> decide
  | boolean v => cases b <;> cases v <;> decide

theorem single_null (b : Backend) : Single b.dialect .word "NULL".toList := by
  constructor <;> cases b <;> decide

theorem single_literal (b : Backend) (v : SqlValue) :
    Single b.dialect (literalMode b.dialect v) (b.dialect.literal v).toList := by
  cases v with
  | null => exact single_null b
  | text s => exact single_quoteText b s
  | integer i => exact single_integer b i
  | double x =>
    rw [literalMode, Dialect.literal]
    split
    · exact single_double b x
    · exact single_null b
  | boolean v => constructor <;> cases b <;> cases v <;> decide

/-! ## Tables -/

def nameLexeme (d : Dialect) (name : String) : Lexeme :=
  ⟨.nameEnd, d.quoteNameChars name.toList⟩

/-- The quoted parts of a table's name, points between them. -/
def tableLexemes (d : Dialect) : List String → List Lexeme
  | [] => []
  | [part] => [nameLexeme d part]
  | part :: next :: parts => nameLexeme d part :: ⟨.symbol, ['.']⟩ :: tableLexemes d (next :: parts)

theorem toList_quoteName (d : Dialect) (name : String) :
    (d.quoteName name).toList = d.quoteNameChars name.toList :=
  String.toList_ofList

theorem single_quoteName (d : Dialect) (name : String) :
    Single d .nameEnd (d.quoteName name).toList := by
  rw [toList_quoteName]
  exact single_quoteNameChars d name.toList

theorem single_point (b : Backend) : Single b.dialect .symbol ['.'] := by
  constructor <;> cases b <;> decide

theorem toList_quoteTable (d : Dialect) (table : String) :
    (d.quoteTable table).toList =
      ['.'].intercalate ((Text.split '.' table).map fun part => d.quoteNameChars part.toList) := by
  rw [Dialect.quoteTable, String.toList_intercalate, List.map_map]
  congr 1
  apply List.map_congr_left
  intro part _
  exact toList_quoteName d part

theorem lexemes_quoteParts (b : Backend) (part : String) (parts : List String) :
    let text := ['.'].intercalate
      ((part :: parts).map fun part => b.dialect.quoteNameChars part.toList)
    lexemes b.dialect text = tableLexemes b.dialect (part :: parts) ∧
      lastMode b.dialect text = .nameEnd := by
  have one := single_quoteNameChars b.dialect part.toList
  induction parts generalizing part with
  | nil =>
    simp only [List.map_cons, List.map_nil, List.intercalate_singleton]
    exact ⟨one.lexemes, one.lastMode⟩
  | cons next parts ih =>
    obtain ⟨cut, last⟩ := ih next (single_quoteNameChars b.dialect next.toList)
    have point := single_point b
    rw [List.map_cons, List.map_cons, List.intercalate_cons_cons, List.append_assoc]
    rw [List.map_cons] at cut last
    generalize text : ['.'].intercalate (b.dialect.quoteNameChars next.toList ::
      parts.map fun part => b.dialect.quoteNameChars part.toList) = rest at cut last ⊢
    have nonempty : rest ≠ [] := by
      rintro rfl
      cases last
    have afterPoint : ∀ c ∈ rest.head?, extend? b.dialect (lastMode b.dialect ['.']) c = none := by
      intro c _
      rw [point.lastMode]
      rfl
    have afterName : ∀ c ∈ (['.'] ++ rest).head?,
        extend? b.dialect (lastMode b.dialect (b.dialect.quoteNameChars part.toList)) c = none := by
      intro c hc
      obtain rfl : '.' = c := by simpa using hc
      rw [one.lastMode]
      cases b <;> decide
    constructor
    · rw [lexemes_append afterName, lexemes_append afterPoint, one.lexemes, point.lexemes, cut]
      rfl
    · rw [lastMode_append (by simp) afterName, lastMode_append nonempty afterPoint, last]

theorem lexemes_quoteTable (b : Backend) (table : String) :
    lexemes b.dialect (b.dialect.quoteTable table).toList =
        tableLexemes b.dialect (Text.split '.' table) ∧
      lastMode b.dialect (b.dialect.quoteTable table).toList = .nameEnd := by
  rw [toList_quoteTable]
  cases split : Text.split '.' table with
  | nil =>
    have pieces := Text.splitChars_ne_nil '.' table.toList
    exact absurd (List.map_eq_nil_iff.mp split) pieces
  | cons part parts => exact lexemes_quoteParts b part parts

theorem mode_of_mem_tableLexemes {d : Dialect} {parts : List String} {l : Lexeme}
    (h : l ∈ tableLexemes d parts) : l.mode = .nameEnd ∨ l.mode = .symbol := by
  induction parts with
  | nil => cases h
  | cons part parts ih =>
    cases parts with
    | nil =>
      obtain rfl : l = nameLexeme d part := by simpa [tableLexemes] using h
      exact .inl rfl
    | cons next parts =>
      rcases List.mem_cons.mp h with rfl | h
      · exact .inl rfl
      rcases List.mem_cons.mp h with rfl | h
      · exact .inr rfl
      · exact ih h

end DocTable.Sql
