import DocTable.Proofs.Executor.Quoted
import DocTable.Proofs.Table.Runs
import DocTable.Proofs.Text.Trimming

/-!
# Calls of executors whose texts are literals

A call reads the rows of a driver that returns literals as it reads plain rows, except for a
count: a number that comes as a text is only accepted plain (`Call.reads_quoted`).
-/

namespace DocTable
set_option autoImplicit false

/-- Which error it is, without what it says. -/
def Error.kind : Error → String
  | .schema _ => "Schema"
  | .filter _ => "Filter"
  | .noData => "NoData"
  | .noMatchingFields => "NoMatchingFields"
  | .noIdProvided => "NoIdProvided"
  | .unknownField _ => "UnknownField"
  | .validation _ => "Validation"
  | .invalidIdentifier _ => "InvalidIdentifier"
  | .execution _ => "Execution"
  | .sql _ => "Sql"

/-- The same value, or errors of the same kind. -/
def SameOrKind {α : Type} (x y : Except Error α) : Prop :=
  x.mapError Error.kind = y.mapError Error.kind

/-! ## Counts -/

theorem Decimal.digits?_eq_none {cs : List Char} {c : Char} (mem : c ∈ cs)
    (other : c.isDigit = false) : digits? cs = none := by
  have notAll : cs.all Char.isDigit = false := by
    rw [List.all_eq_false]
    exact ⟨c, mem, by simp [other]⟩
  rw [digits?, notAll, Bool.not_false, Bool.or_true, if_pos rfl]

theorem Decimal.uint64?_eq_none {s : String} {c : Char} (mem : c ∈ s.toList)
    (other : c.isDigit = false) (notPlus : c ≠ '+') : uint64? s = none := by
  have unread : unsigned? s.toList = none := by
    unfold unsigned?
    split
    · rename_i cs whole
      rw [whole] at mem
      exact digits?_eq_none ((List.mem_cons.mp mem).resolve_left notPlus) other
    · exact digits?_eq_none mem other
  rw [uint64?, unread, Option.filter_none]

/-- Trimming keeps every character that is not blank. -/
theorem Text.mem_trimChars {cs : List Char} {c : Char} (mem : c ∈ cs)
    (solid : isBlank c = false) : c ∈ trimChars cs := by
  obtain ⟨front, back, whole, before, after⟩ := trimChars_decomposition cs
  have apart (blanks : List Char) (all : ∀ c ∈ blanks, isBlank c = true) : c ∉ blanks :=
    fun mem => by simp [all c mem] at solid
  rw [whole, List.mem_append, List.mem_append] at mem
  exact (mem.resolve_right (apart back after)).resolve_left (apart front before)

theorem TextQuoting.apostrophe_mem_quoteChars (q : TextQuoting) (cs : List Char) :
    Quoting.apostrophe ∈ q.quoteChars cs := by
  cases q <;> simp [quoteChars]

/-- A literal is no number, whatever text it stands for. -/
theorem Row.count?_quoteText (d : Dialect) (s : String) : count? (.str (d.quoteText s)) = none := by
  have quote : Quoting.apostrophe ∈ (Text.trim (d.quoteText s)).toList := by
    rw [Text.toList_trim, Dialect.quoteText, String.toList_ofList]
    exact Text.mem_trimChars (d.texts.apostrophe_mem_quoteChars s.toList) (by decide)
  exact Decimal.uint64?_eq_none quote (by decide) (by decide)

namespace Row

/-- The count that rows report is a number in a text. -/
def CountsText (rows : List Row) : Prop :=
  ∃ text n, rows.head?.bind countValue? = some (.str text) ∧ count? (.str text) = some n

theorem countValue?_quoteRow (d : Dialect) (row : Row) :
    countValue? (d.quoteRow row) = (countValue? row).map d.quoteValue := by
  have named := Json.Members.get?_map d.quoteValue "count" row
  have first : (d.quoteRow row).head?.map Prod.snd = (row.head?.map Prod.snd).map d.quoteValue := by
    cases row <;> rfl
  rw [countValue?, countValue?, first, Dialect.quoteRow, named, Option.map_or]

theorem head?_bind_quoteRows (d : Dialect) (rows : List Row) :
    (d.quoteRows rows).head?.bind countValue? =
      (rows.head?.bind countValue?).map d.quoteValue := by
  cases rows with
  | nil => rfl
  | cons row rows => exact countValue?_quoteRow d row

/-- A count reads quoted rows like plain ones, unless it is in a text. -/
theorem countOf_quoteRows (d : Dialect) {rows : List Row} (none : ¬ CountsText rows) :
    SameOrKind (countOf (d.quoteRows rows)) (countOf rows) := by
  unfold SameOrKind countOf
  rw [head?_bind_quoteRows]
  cases found : rows.head?.bind countValue? with
  | none => rfl
  | some v =>
    cases v with
    | str text =>
      have unread : count? (.str text) = .none := by
        rw [Option.eq_none_iff_forall_ne_some]
        exact fun n counted => none ⟨text, n, found, counted⟩
      simp [Dialect.quoteValue, count?_quoteText, unread, Except.mapError, Error.kind]
    | _ => rfl

theorem countOf_quoteRows_text (d : Dialect) {rows : List Row} (counts : CountsText rows) :
    (∃ n, countOf rows = .ok n) ∧
      ∃ v, countOf (d.quoteRows rows) = .error (.execution (.badCount v)) := by
  obtain ⟨text, n, found, counted⟩ := counts
  unfold countOf
  rw [head?_bind_quoteRows, found]
  simp [Dialect.quoteValue, count?_quoteText, counted]

end Row

/-- A run with plain texts and one with literals: they come to the same, unless a count is in
a text. Then only the plain one has it. -/
structure ReadsAlike {σ α : Type} (inText : Prop) (plain quoted : Except Error α × σ) :
    Prop where
  state : quoted.2 = plain.2
  same : ¬ inText → SameOrKind quoted.1 plain.1
  refused : inText → (∃ a, plain.1 = .ok a) ∧
    ∃ v, quoted.1 = .error (.execution (.badCount v))

namespace ReadsAlike

variable {σ α β : Type} {inText : Prop}

theorem of_eq {plain quoted : Except Error α × σ} (same : quoted = plain) (plainly : ¬ inText) :
    ReadsAlike inText plain quoted := by
  subst same
  exact ⟨rfl, fun _ => rfl, fun text => absurd text plainly⟩

theorem map {x y : Operation σ α} {state : σ} (g : α → β)
    (h : ReadsAlike inText (x.runFrom state) (y.runFrom state)) :
    ReadsAlike inText ((g <$> x).runFrom state) ((g <$> y).runFrom state) := by
  rw [Operation.runFrom_map, Operation.runFrom_map]
  refine ⟨h.state, fun plainly => ?_, fun text => ?_⟩
  · have same := h.same plainly
    unfold SameOrKind at same ⊢
    revert same
    cases (y.runFrom state).1 <;> cases (x.runFrom state).1 <;> simp [Except.map, Except.mapError]
    exact congrArg g
  · obtain ⟨⟨a, counted⟩, v, refused⟩ := h.refused text
    exact ⟨⟨g a, by rw [counted]; rfl⟩, v, by rw [refused]; rfl⟩

end ReadsAlike

/-! ## Operations -/

namespace Table

variable {σ : Type} (t : Table) (e : Executor σ) (d : Dialect)

/-- The rows that a count fetches report a number in a text. -/
def CountsText (filter : Filter) (state : σ) : Prop :=
  ∃ s rows, t.countStatement filter = .ok s ∧ (e.fetchAll s state).1 = .ok rows ∧
    Row.CountsText rows

theorem list_quoted (o : ListOptions) : t.list (e.quoted d) o = t.list e.plain o := by
  simp only [list, Executor.decodedRows_quoted]

theorem find_quoted (id : String) (select : List String) :
    t.find (e.quoted d) id select = t.find e.plain id select := by
  simp only [find, Executor.decodedRows_quoted]

/-- The ids are compared after decoding. -/
theorem createMany_quoted (fresh : Nat → String) (records : List Record) :
    t.createMany (e.quoted d) fresh records = t.createMany e.plain fresh records := by
  simp only [createMany, Executor.decodedRows_quoted, Executor.affected_quoted]

theorem create_quoted (fresh : Nat → String) (record : Record) :
    t.create (e.quoted d) fresh record = t.create e.plain fresh record := by
  rw [create, create, createMany_quoted]

theorem runFrom_count (filter : Filter) (state : σ) :
    (t.count e filter).runFrom state =
      match t.countStatement filter with
      | .ok s => ((e.fetchAll s state).1 >>= Row.countOf, (e.fetchAll s state).2)
      | .error err => (.error err, state) := by
  rw [count, Operation.runFrom_bind, Operation.runFrom_ofExcept]
  cases t.countStatement filter with
  | error err => rfl
  | ok s =>
    have fetched : (e.rows s).runFrom state = e.fetchAll s state := rfl
    dsimp only
    rw [Operation.runFrom_bind, fetched]
    rcases e.fetchAll s state with ⟨_ | rows, after⟩ <;> rfl

/-- A count does not decode its row. -/
theorem count_quoted (filter : Filter) (state : σ) :
    ReadsAlike (t.CountsText e filter state) ((t.count e.plain filter).runFrom state)
      ((t.count (e.quoted d) filter).runFrom state) := by
  rw [runFrom_count, runFrom_count]
  cases composed : t.countStatement filter with
  | error err =>
    refine .of_eq rfl ?_
    rintro ⟨s, rows, ok, -⟩
    rw [composed] at ok
    cases ok
  | ok s =>
    show ReadsAlike _ ((e.fetchAll s state).1 >>= Row.countOf, (e.fetchAll s state).2)
      ((e.fetchAll s state).1.map d.quoteRows >>= Row.countOf, (e.fetchAll s state).2)
    cases fetched : (e.fetchAll s state).1 with
    | error err =>
      refine .of_eq rfl ?_
      rintro ⟨s', rows, same, answered, -⟩
      obtain rfl := Except.ok.inj (composed.symm.trans same)
      rw [fetched] at answered
      cases answered
    | ok rows =>
      refine ⟨rfl, fun plainly => Row.countOf_quoteRows d fun counts => ?_, ?_⟩
      · exact plainly ⟨s, rows, composed, fetched, counts⟩
      · rintro ⟨s', rows', same, answered, counts⟩
        obtain rfl := Except.ok.inj (composed.symm.trans same)
        obtain rfl := Except.ok.inj (fetched.symm.trans answered)
        exact Row.countOf_quoteRows_text d counts

end Table

/-! ## Calls -/

namespace Call

variable {σ α : Type}

/-- The filter of a call that counts. -/
def counted? : Call α → Option Filter
  | .count filter => some filter
  | .listOrCount o => if o.countOnly then some o.filter else none
  | _ => none

/-- The call counts, and the number comes in a text. -/
def CountsText (t : Table) (e : Executor σ) (state : σ) (call : Call α) : Prop :=
  ∃ filter, call.counted? = some filter ∧ t.CountsText e filter state

/-- **Literals are read as the texts they stand for, except for counts.** Whatever the rows
that a driver answers with, a call comes to the same value or kind of error when their texts
are literals of a dialect as when they are plain, unless it counts and the number is in a text.
Then it succeeds on plain rows only. -/
theorem reads_quoted (t : Table) (e : Executor σ) (d : Dialect) (fresh : Nat → String) :
    (∀ sql, (e.quoted d).runSql sql = e.plain.runSql sql) ∧
    ∀ {α : Type} (call : Call α) (state : σ),
      ReadsAlike (call.CountsText t e state) ((call.run t e.plain fresh).runFrom state)
        ((call.run t (e.quoted d) fresh).runFrom state) := by
  refine ⟨e.runSql_quoted d, fun {α} call state => ?_⟩
  have alike (same : call.run t (e.quoted d) fresh = call.run t e.plain fresh)
      (other : call.counted? = none) : ReadsAlike (call.CountsText t e state)
        ((call.run t e.plain fresh).runFrom state)
        ((call.run t (e.quoted d) fresh).runFrom state) := by
    refine .of_eq (by rw [same]) ?_
    rintro ⟨filter, counts, -⟩
    rw [other] at counts
    cases counts
  cases call with
  | count filter =>
    have text : CountsText t e state (.count filter) ↔ t.CountsText e filter state := by
      simp [CountsText, counted?]
    rw [text]
    exact t.count_quoted e d filter state
  | listOrCount o =>
    by_cases only : o.countOnly = true
    · have text : CountsText t e state (.listOrCount o) ↔ t.CountsText e o.filter state := by
        simp [CountsText, counted?, only]
      rw [text, run, run, Table.listOrCount, Table.listOrCount, if_pos only, if_pos only]
      exact (t.count_quoted e d o.filter state).map ListResponse.count
    · refine alike ?_ (by simp [counted?, only])
      rw [run, run, Table.listOrCount, Table.listOrCount, if_neg only, if_neg only,
        Table.list_quoted]
  | list o => exact alike (t.list_quoted e d o) rfl
  | find id select => exact alike (t.find_quoted e d id select) rfl
  | create record => exact alike (t.create_quoted e d fresh record) rfl
  | createMany records => exact alike (t.createMany_quoted e d fresh records) rfl
  | createTable | update | delete | deleteMany => exact alike rfl rfl

/-- Three notes: the number as a text is a count, and as the literal of the text it is none. -/
theorem notes_count_quoted :
    let call : Call Nat := .count Filter.empty
    let script : Script := ⟨[.ok [[("count", .str "3")]]], [], false, []⟩
    let answer (e : Executor Script) : Except Error Nat :=
      ((call.run Table.notes e fun _ => Table.noteId).runFrom script).1
    answer (Script.executor none).plain = .ok 3 ∧
    answer ((Script.executor none).quoted .postgres) =
      .error (.execution (.badCount (.str "'3'"))) ∧
    ¬ SameOrKind (answer ((Script.executor none).quoted .postgres))
      (answer (Script.executor none).plain) := by
  intro call script answer
  have plain : answer (Script.executor none).plain = .ok 3 := by decide +kernel
  have quoted : answer ((Script.executor none).quoted .postgres) =
      .error (.execution (.badCount (.str "'3'"))) := by
    decide +kernel
  refine ⟨plain, quoted, ?_⟩
  rw [plain, quoted]
  exact nofun

end Call
end DocTable
