import DocTable.Proofs.Clause.Taken
import DocTable.Proofs.Condition.OfFilter
import DocTable.Proofs.Condition.Sited
import DocTable.Proofs.Table.Carries

/-!
# Clauses and the values they carry

One lemma for each clause of a statement: what it is composed to carries the values that
the request gives for it, and may stand after anything (`Follows`).
-/

namespace DocTable
set_option autoImplicit false

/-- A clause that carries given values and may follow any fragment. -/
structure Fragment.Follows (b : Backend) (f : Fragment) (given : List Given) : Prop where
  sited : f.Sited b (given.map Given.site)
  starts : ∀ q ∈ f.head?, q.startsApart = true
  fits : ∀ g ∈ given, g.Fits

namespace Fragment

variable {b : Backend} {f g : Fragment} {xs ys : List Given}

theorem Follows.nil : Follows b [] [] := ⟨.nil, nofun, nofun⟩

/-- A clause that starts with a word. -/
theorem Follows.word {s : String} (sited : Sited b (.word s :: f) (xs.map Given.site))
    (starts : (Piece.word s).startsApart = true) (fits : ∀ g ∈ xs, g.Fits) :
    Follows b (.word s :: f) xs := by
  refine ⟨sited, ?_, fits⟩
  intro q hq
  obtain rfl : Piece.word s = q := by simpa using hq
  exact starts

theorem Sited.append_clause {operands : List (String × SqlValue)} (hf : Sited b f operands)
    (hg : Follows b g xs) : Sited b (f ++ g) (operands ++ xs.map Given.site) :=
  hf.append hg.sited fun _ _ q hq => .inr (hg.starts q hq)

end Fragment

open Fragment (Sited Follows)

variable {r : Registry} {policy : FieldPolicy} {b : Backend} {f : Fragment}

namespace Clause

/-! ## Columns, order and page -/

theorem sited_columns (fields : List Field) :
    Sited b (Fragment.commas (fields.map fun f => [.column f.key])) [] := by
  refine .commas_of_none ?_
  intro f hf
  obtain ⟨field, _, rfl⟩ := List.mem_map.mp hf
  exact .of_no_operands (.single rfl) rfl

theorem sited_select {names : List String} (ok : select r policy names = .ok (some f)) :
    Sited b f [] := by
  obtain ⟨fields, -, rfl⟩ := commas_of_ok ok
  exact sited_columns fields

theorem sited_sortTerm (t : SortTerm) : Sited b t.fragment [] := by
  obtain ⟨field, direction⟩ := t
  refine .of_no_operands ?_ rfl
  cases direction with
  | ascending =>
    show Fragment.WellSpaced [.column field.key, .word " ASC"]
    exact Condition.spaced_test field.key (by decide) (by decide)
  | descending =>
    show Fragment.WellSpaced [.column field.key, .word " DESC"]
    exact Condition.spaced_test field.key (by decide) (by decide)

theorem sited_orderBy {tokens : List String} (ok : orderBy r policy tokens = .ok (some f)) :
    Sited b f [] := by
  obtain ⟨terms, -, rfl⟩ := commas_of_ok ok
  refine .commas_of_none ?_
  intro f hf
  obtain ⟨t, _, rfl⟩ := List.mem_map.mp hf
  exact sited_sortTerm t

/-! ## Ids -/

theorem mapM_take (ids : List String) :
    (ids.mapM fun id => Draft.take (.text id)).outcome = .ok (ids.map SqlValue.text) := by
  rw [Draft.ok_mapM]
  induction ids with
  | nil => exact .nil
  | cons id ids ih => exact .cons rfl ih

/-- A list of ids is refused when it has none, and else lists its operands. -/
theorem idValues_eq (ids : List String) :
    (idValues ids).outcome = if distinctIds ids = [] then .error .noIdProvided
      else .ok (Fragment.values ((distinctIds ids).map SqlValue.text)) := by
  rw [idValues, Draft.outcome_bind, mapM_take]
  cases distinctIds ids <;> rfl

theorem ok_idValues {ids : List String} (ok : (idValues ids).outcome = .ok f) :
    f = Fragment.values ((distinctIds ids).map SqlValue.text) := by
  rw [idValues_eq] at ok
  split at ok
  · cases ok
  · exact (Except.ok.inj ok).symm

end Clause

theorem Request.fits_id (id : String) :
    Given.Fits ⟨Field.primaryKey, .str id⟩ ∧
      Given.typed ⟨Field.primaryKey, .str id⟩ = .text id :=
  Given.fits_of_coerce rfl

theorem Request.fits_ofIds (ids : List String) : ∀ g ∈ ofIds ids, g.Fits := by
  intro g hg
  obtain ⟨id, _, rfl⟩ := List.mem_map.mp hg
  exact (fits_id id).1

namespace Table

variable {t : Table}

theorem sited_columnList {names : List String} (ok : (t.columnList names).outcome = .ok f) :
    Sited b f [] := by
  obtain ⟨chosen, selected, rfl⟩ := Draft.ok_map.mp ok
  cases chosen with
  | none => exact .of_no_operands (.single (by decide)) rfl
  | some columns => exact Clause.sited_select selected

theorem sited_fallbackOrder {paged : Bool} (ok : t.fallbackOrder paged = some f) :
    Sited b f [] := by
  unfold fallbackOrder at ok
  split at ok
  · obtain rfl := Option.some.inj ok
    exact Clause.sited_sortTerm _
  · split at ok
    · obtain ⟨s, known, rfl⟩ := Option.map_eq_some_iff.mp ok
      have plain : (Piece.word s).isPlain = true := by
        rw [Config.dialect] at known
        cases backend : t.config.backend with
        | mssql =>
          rw [backend] at known
          obtain rfl := Option.some.inj known
          decide
        | _ =>
          rw [backend] at known
          cases known
      exact .of_no_operands (.single plain) rfl
    · cases ok

theorem follows_orderClause {tokens : List String} {paged : Bool}
    (ok : (t.orderClause tokens paged).outcome = .ok f) : Follows b f [] := by
  obtain ⟨order, ordered, rfl⟩ := Draft.ok_map.mp ok
  cases chosen : (order <|> t.fallbackOrder paged) with
  | none => exact .nil
  | some terms =>
    have sited : Sited b terms [] := by
      cases order with
      | some o =>
        obtain rfl := Option.some.inj chosen
        exact Clause.sited_orderBy ordered
      | none => exact sited_fallbackOrder chosen
    exact .word (sited.word_cons (by decide) (by decide)) (by decide) (List.forall_mem_nil _)

theorem plain_digits (n : Nat) : ∀ c ∈ (toString n).toList, Sql.isPlainChar c = true := by
  intro c hc
  have digit : c.isDigit = true := Sql.digits_toDigits n c (by simpa using hc)
  simp [Sql.isPlainChar, Char.isAlphanum, digit]

/-- A page's text holds fixed words and digits. -/
theorem plain_window (b : Backend) (w : Clause.Window) :
    ∀ c ∈ (w.text b.dialect).toList, Sql.isPlainChar c = true := by
  have words : ∀ part ∈ b.dialect.page, ∀ s, part = .word s →
      ∀ c ∈ s.toList, Sql.isPlainChar c = true := by
    cases b <;> simp [Backend.dialect, Dialect.postgres, Dialect.mysql, Dialect.mssql,
      Dialect.oracle, Dialect.limitOffset, Dialect.offsetFetch] <;> decide
  intro c hc
  rw [Clause.Window.text, Dialect.pageText, String.toList_join, List.mem_flatMap] at hc
  obtain ⟨text, written, hc⟩ := hc
  obtain ⟨part, hp, rfl⟩ := List.mem_map.mp written
  cases part with
  | word s => exact words _ hp s rfl c hc
  | limit => exact plain_digits w.limit c hc
  | offset => exact plain_digits w.offset c hc

theorem follows_pageClause (window : Option Clause.Window) :
    Follows b (t.pageClause window) [] := by
  cases window with
  | none => exact .nil
  | some w =>
    have plain : (Piece.word (" " ++ w.text t.config.dialect)).isPlain = true := by
      rw [Piece.isPlain, Config.dialect]
      simpa [Sql.isPlainChar, Sql.isSeparator] using plain_window t.config.backend w
    have starts : (Piece.word (" " ++ w.text t.config.dialect)).startsApart = true := by
      simp [Piece.startsApart, Sql.isSeparator]
    exact .word (.of_no_operands (.single plain) rfl) starts (List.forall_mem_nil _)

/-! ## Conditions -/

theorem follows_whereClause {filter : Filter} (ok : (t.whereClause filter).outcome = .ok f) :
    Follows b f (Request.ofFilter t.registry filter) := by
  obtain ⟨conditions, composed, rfl⟩ := Draft.ok_map.mp ok
  have compiled := Condition.compiled_ofMembers composed
  have operands : (Condition.sitesEach conditions).flatten =
      (Request.ofFilter t.registry filter).map Given.site := compiled.flatten_sitesEach
  have fits : ∀ g ∈ Request.ofFilter t.registry filter, g.Fits := by
    intro g hg
    obtain ⟨s, hs, rfl⟩ := List.mem_map.mp hg
    exact (compiled.sites s hs).2
  cases conditions with
  | nil =>
    have none : Request.ofFilter t.registry filter = [] := List.map_eq_nil_iff.mp operands.symm
    rw [none]
    exact .nil
  | cons c cs =>
    have sited := Condition.sited_conjunction b (c :: cs)
    rw [operands] at sited
    exact .word (sited.word_cons (by decide) (by decide)) (by decide) fits

theorem follows_keyAmong (ids : List String) :
    Follows b (keyAmong (Fragment.values ((Clause.distinctIds ids).map SqlValue.text)))
      (Request.ofIds ids) := by
  have listed := Fragment.sited_list (b := b) (s := " IN ") (by decide)
    Field.primaryKeyName ((Clause.distinctIds ids).map SqlValue.text)
  have sites : ((Clause.distinctIds ids).map SqlValue.text).map (fun v =>
      (Field.primaryKeyName, v)) = (Request.ofIds ids).map Given.site := by
    simp only [Request.ofIds, List.map_map]
    apply List.map_congr_left
    intro id _
    rw [Function.comp, Function.comp, Given.site, (Request.fits_id id).2]
    rfl
  rw [sites] at listed
  exact .word (listed.word_cons (by decide) (by decide)) (by decide) (Request.fits_ofIds ids)

end Table

/-! ## Assignments -/

namespace Clause

/-- A leaf assigns the column with its key, unless there is none or it is the table's key. -/
theorem ok_assignment {key : String} {v : Json} {fs : List Fragment}
    (ok : (assignment r policy key v).outcome = .ok fs) :
    (r.get? key = none ∧ policy = .ignore ∧ fs = []) ∨
    (∃ f, r.get? key = some f ∧ f.isPrimaryKey = true ∧ fs = []) ∨
    ∃ f value, r.get? key = some f ∧ f.isPrimaryKey = false ∧ f.coerce v = .ok value ∧
      fs = [[.column f.key, .word " = ", .operand value]] := by
  unfold assignment at ok
  cases found : r.get? key with
  | none =>
    rw [found] at ok
    cases policy with
    | ignore =>
      cases ok
      exact .inl ⟨rfl, rfl, rfl⟩
    | reject => cases ok
  | some f =>
    rw [found] at ok
    dsimp only at ok
    split at ok
    · rename_i isKey
      obtain rfl := Draft.ok_pure.mp ok
      exact .inr (.inl ⟨f, rfl, isKey, rfl⟩)
    · rename_i notKey
      obtain ⟨value, taken, rfl⟩ := Draft.ok_return.mp ok
      exact .inr (.inr ⟨f, value, rfl, Bool.not_eq_true _ ▸ notKey, Draft.ok_takeFor.mp taken, rfl⟩)

/-- Assignments are those of the leaves, and there are some. -/
theorem ok_assignments_iff {record : Record} :
    (assignments r policy record).outcome = .ok f ↔
      ∃ each, (record.flatten.mapM fun m => assignment r policy m.1 m.2).outcome = .ok each ∧
        each.flatten ≠ [] ∧ f = Fragment.commas each.flatten := by
  rw [assignments, Draft.ok_bind]
  refine exists_congr fun each => and_congr_right fun _ => ?_
  cases each.flatten with
  | nil => simp
  | cons => simp [eq_comm]

/-- A leaf assigns one column, or none when it is the key or no column. -/
theorem sited_assignment {leaf : String × Json} {fs : List Fragment}
    (ok : (assignment r policy leaf.1 leaf.2).outcome = .ok fs) :
    List.Forall₂ (Sited b) fs ((Request.ofLeaf r leaf).toList.map fun g => [g.site]) ∧
      ∀ g ∈ Request.ofLeaf r leaf, g.Fits := by
  rcases ok_assignment ok with ⟨found, -, rfl⟩ | ⟨field, found, key, rfl⟩ |
    ⟨field, value, found, notKey, coerced, rfl⟩
  · rw [Request.ofLeaf, found]
    exact ⟨.nil, nofun⟩
  · simp only [Request.ofLeaf, found, if_pos key]
    exact ⟨.nil, nofun⟩
  · obtain ⟨fits, typed⟩ := Given.fits_of_coerce coerced
    have site : Given.site ⟨field, leaf.2⟩ = (field.key, value) := by
      rw [← typed]
      rfl
    simp only [Request.ofLeaf, found, notKey, Bool.false_eq_true, if_false]
    refine ⟨.cons ?_ .nil, ?_⟩
    · show Sited b _ [Given.site ⟨field, leaf.2⟩]
      rw [site]
      exact .operand (by decide) field.key value
    · intro g hg
      obtain rfl := Option.some.inj hg
      exact fits

theorem sited_assignments {record : Record} (ok : (assignments r policy record).outcome = .ok f) :
    Sited b f ((record.flatten.filterMap (Request.ofLeaf r)).map Given.site) ∧
      ∀ g ∈ record.flatten.filterMap (Request.ofLeaf r), g.Fits := by
  obtain ⟨each, taken, -, rfl⟩ := ok_assignments_iff.mp ok
  have all : List.Forall₂ (Sited b) each.flatten
      ((record.flatten.filterMap (Request.ofLeaf r)).map fun g => [g.site]) ∧
      ∀ g ∈ record.flatten.filterMap (Request.ofLeaf r), g.Fits := by
    have leaves := Draft.ok_mapM.mp taken
    generalize record.flatten = all at leaves
    clear ok taken
    induction leaves with
    | nil => exact ⟨.nil, List.forall_mem_nil _⟩
    | @cons leaf here leaves rest first _ ih =>
      obtain ⟨sited, fits⟩ := sited_assignment (b := b) first
      obtain ⟨others, fitOthers⟩ := ih
      cases given : Request.ofLeaf r leaf with
      | none =>
        rw [given] at sited
        cases sited
        rw [List.filterMap_cons_none given]
        exact ⟨others, fitOthers⟩
      | some g =>
        rw [given] at sited fits
        rw [List.filterMap_cons_some given, List.flatten_cons]
        refine ⟨List.rel_append sited others, ?_⟩
        intro x hx
        rcases List.mem_cons.mp hx with rfl | hx
        · exact fits x rfl
        · exact fitOthers x hx
  refine ⟨?_, all.2⟩
  have commas := Sited.commas all.1
  rwa [← List.flatMap_def, ← List.map_eq_flatMap] at commas

end Clause
end DocTable
