import DocTable.Proofs.Clause.Strictness
import DocTable.Proofs.Distinct.FirstOccurrences
import DocTable.Proofs.Registry.Resolution

/-!
# Columns and terms that names stand for

A name stands for one column or for none, and so does a sort token, with a direction. A list of
them gives the first of each column, in their order, unless a strict policy refuses a name
(`select_gives`, `orderBy_gives`).
-/

namespace DocTable
set_option autoImplicit false

/-- A column is spelled by its key and by its path, with any blanks around them. -/
def Field.SpelledBy (f : Field) (name : String) : Prop :=
  Text.Padded f.key name ∨ Text.Padded f.sourcePath name

namespace FieldPolicy

variable {α β : Type} {policy : FieldPolicy} {x : Except Error α} {a b : α}

/-- The result is given, or a strict policy refuses a name. -/
def Gives (policy : FieldPolicy) (x : Except Error α) (a : α) : Prop :=
  x = .ok a ∨ policy = .reject ∧ ∃ name, x = .error (.unknownField name)

namespace Gives

theorem of_narrows (find : FieldPolicy → Except Error α)
    (narrows : Narrows (find .reject) (find .ignore)) (lenient : find .ignore = .ok a) :
    policy.Gives (find policy) a := by
  cases policy with
  | ignore => exact .inl lenient
  | reject => exact (lenient ▸ narrows).imp_right fun refused => ⟨rfl, refused⟩

theorem map (g : α → β) (gives : policy.Gives x a) : policy.Gives (x.map g) (g a) := by
  rcases gives with rfl | ⟨strict, name, rfl⟩
  · exact .inl rfl
  · exact .inr ⟨strict, name, rfl⟩

theorem eq_of_ok (gives : policy.Gives x a) (ok : x = .ok b) : b = a := by
  rcases gives with rfl | ⟨-, name, rfl⟩
  · exact (Except.ok.inj ok).symm
  · cases ok

theorem ok_of_ignore (gives : policy.Gives x a) (lenient : policy = .ignore) : x = .ok a := by
  rcases gives with ok | ⟨strict, -⟩
  · exact ok
  · cases lenient.symm.trans strict

end Gives
end FieldPolicy

namespace Clause

variable {r : Registry} {policy : FieldPolicy} {f : Field} {name token : String}

/-! ## Tokens -/

/-- The term that a token stands for. -/
def termOf? (r : Registry) (token : String) : Option SortTerm :=
  (r.resolve? (sortToken token).1).map fun f => ⟨f, (sortToken token).2⟩

theorem termOf?_of_blank (blank : Text.trim token = "") : termOf? r token = none := by
  rw [termOf?, sortToken, blank]
  rfl

/-- A sign in front turns the direction, whatever blanks stand around it. -/
theorem termOf?_of_sign (padded : Text.Padded ("-" ++ name) token) :
    termOf? r token = (r.resolve? name).map fun f => ⟨f, .descending⟩ := by
  have solid : Text.isBlank '-' = false := by decide
  have sign : (Text.trim token).toList = '-' :: Text.trimEndChars name.toList := by
    rw [padded.trim_eq, Text.toList_trim, String.toList_append]
    exact Text.trimChars_cons solid _
  have read : sortToken token = (String.ofList (Text.trimEndChars name.toList), .descending) := by
    rw [sortToken, sign]
    rfl
  rw [termOf?, read, Registry.resolve?_of_padded (Text.padded_trimEndChars name)]

theorem termOf?_of_not_mem (plain : '-' ∉ name.toList) :
    termOf? r name = (r.resolve? name).map fun f => ⟨f, .ascending⟩ := by
  have read : sortToken name = (Text.trim name, .ascending) := by
    rw [sortToken]
    split
    · rename_i rest sign
      have mem : '-' ∈ Text.trimChars name.toList := by
        rw [← Text.toList_trim, sign]
        exact List.mem_cons_self
      exact absurd (Text.mem_of_mem_trimChars mem) plain
    · rw [String.ofList_toList]
  rw [termOf?, read, Registry.resolve?_trim]

/-! ## Spellings -/

theorem not_mem_of_spelledBy (h : r.WellFormed) (mem : f ∈ r.fields) (spelled : f.SpelledBy name) :
    '-' ∉ name.toList := by
  have solid : Text.isBlank '-' = false := by decide
  rcases spelled with key | path
  · refine key.not_mem solid fun sign => ?_
    have rest := Identifier.isRest_of_mem (h.word f mem) sign
    revert rest
    decide
  · refine path.not_mem solid fun sign => ?_
    have visible := Path.visible_of_isWord (h.isWord_path mem) sign
    revert visible
    decide

/-- All spellings of a column stand for it, and for its terms. -/
structure Stands (r : Registry) (f : Field) (name : String) : Prop where
  column : r.resolve? name = some f
  ascending : termOf? r name = some ⟨f, .ascending⟩
  descending : ∀ token, Text.Padded ("-" ++ name) token →
    termOf? r token = some ⟨f, .descending⟩

theorem stands_of_spelledBy (h : r.WellFormed) (mem : f ∈ r.fields)
    (spelled : f.SpelledBy name) : Stands r f name := by
  have column : r.resolve? name = some f := by
    rcases spelled with key | path
    · rw [Registry.resolve?_of_padded key, h.resolve?_key mem]
    · rw [Registry.resolve?_of_padded path, h.resolve?_sourcePath mem]
  refine ⟨column, ?_, fun token sign => ?_⟩
  · rw [termOf?_of_not_mem (not_mem_of_spelledBy h mem spelled), column, Option.map_some]
  · rw [termOf?_of_sign sign, column, Option.map_some]

/-! ## Lists -/

theorem lookUp_ignore (name : String) : lookUp r .ignore name = .ok (r.resolve? name) := by
  rw [lookUp]
  cases r.resolve? name <;> rfl

theorem sortTerm_ignore (token : String) : sortTerm r .ignore token = .ok (termOf? r token) := by
  rw [sortTerm]
  split
  · rename_i blank
    rw [termOf?_of_blank (by simpa [Text.isBlankText] using blank)]
  · rw [termOf?]
    generalize sortToken token = read
    obtain ⟨name, direction⟩ := read
    dsimp only
    rw [lookUp_ignore]
    rfl

/-- Passing over what is not found, a list has the first of each key that is found. -/
theorem distinct_of_found {α β : Type} {find : α → Except Error (Option β)} {pick : α → Option β}
    (finds : ∀ x, find x = .ok (pick x)) (key : β → String) (xs : List α) :
    (do
      let found ← xs.mapM find
      return distinctBy key (found.filterMap id) : Except Error (List β)) =
        .ok (distinctBy key (xs.filterMap pick)) := by
  have found : xs.mapM find = .ok (xs.map pick) := by
    rw [funext finds]
    exact List.mapM_pure
  rw [found]
  show Except.ok (distinctBy key ((xs.map pick).filterMap id)) = _
  rw [List.filterMap_map]
  rfl

/-- The columns that names stand for, each where it comes first. -/
def columnsOf (r : Registry) (names : List String) : List Field :=
  distinctBy Field.key (names.filterMap r.resolve?)

/-- The terms that tokens stand for, of each column the first. -/
def termsOf (r : Registry) (tokens : List String) : List SortTerm :=
  distinctBy (fun term => term.field.key) (tokens.filterMap (termOf? r))

theorem select_gives (names : List String) :
    policy.Gives (select r policy names) (if (columnsOf r names).isEmpty then none
      else some (Fragment.commas ((columnsOf r names).map fun f => [.column f.key]))) := by
  refine .of_narrows (select r · names) (narrows_select names) ?_
  rw [select, projection, distinct_of_found lookUp_ignore]
  rfl

theorem orderBy_gives (tokens : List String) :
    policy.Gives (orderBy r policy tokens) (if (termsOf r tokens).isEmpty then none
      else some (Fragment.commas ((termsOf r tokens).map SortTerm.fragment))) := by
  refine .of_narrows (orderBy r · tokens) (narrows_orderBy tokens) ?_
  rw [orderBy, ordering, distinct_of_found sortTerm_ignore]
  rfl

end Clause
end DocTable
