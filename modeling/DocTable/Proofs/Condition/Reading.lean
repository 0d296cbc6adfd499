import DocTable.Proofs.Condition.Tests

/-!
# Conditions are read back

A condition is written so that it is one factor beside others: a test, a group in
parentheses, or the negation of one (`reads_condition`). Whatever stands around it, the
grammar takes it as one operand.
-/

namespace DocTable
set_option autoImplicit false
open Sql (Token Item Category Derives)

/-- The text of a fragment reads as a predicate, as a part of some category. -/
def Fragment.Reads (style : Style) (category : Category) (before : Nat) (f : Fragment)
    (p : Predicate Operand) : Prop :=
  ∃ is, f.Gives style before is ∧ Derives category is p

/-- Fragments one after the other that read as predicates. -/
inductive Fragment.ReadsAll (style : Style) (category : Category) :
    Nat → List Fragment → List (Predicate Operand) → Prop where
  | nil {before : Nat} : ReadsAll style category before [] []
  | cons {before : Nat} {f : Fragment} {p : Predicate Operand} {fs : List Fragment}
      {ps : List (Predicate Operand)} :
      f.WellSpaced → f.Reads style category before p →
      ReadsAll style category (before + (f.bound style).length) fs ps →
      ReadsAll style category before (f :: fs) (p :: ps)

section Backend

variable (b : Backend) {style : Style} (hb : style.dialect = b.dialect)

namespace Fragment

/-! ## Composition -/

theorem separatedBy_cons (separator : String) (f : Fragment) (fs : List Fragment) :
    separatedBy separator (f :: fs) = f ++ fs.flatMap fun g => .word separator :: g := by
  induction fs generalizing f with
  | nil => simp [separatedBy]
  | cons g gs ih => rw [separatedBy, ih, List.flatMap_cons, List.cons_append]

theorem Reads.imp {category other : Category} {before : Nat} {f : Fragment}
    {p : Predicate Operand} (hf : f.Reads style category before p)
    (lift : ∀ {is}, Derives category is p → Derives other is p) :
    f.Reads style other before p := by
  obtain ⟨is, gives, derives⟩ := hf
  exact ⟨is, gives, lift derives⟩

include hb

theorem Gives.append {before : Nat} {f g : Fragment} {is js : List Item} (spaced : f.WellSpaced)
    (hf : f.Gives style before is) (hg : g.Gives style (before + (f.bound style).length) js) :
    (f ++ g).Gives style before (is ++ js) := by
  intro ts
  rw [tokens_append b hb spaced.plain, List.append_assoc, hf, hg, Option.map_map]
  congr 1
  funext ks
  exact (List.append_assoc is js ks).symm

/-- A word that is one item. -/
theorem gives_word {s : String} {t : Token} {i : Item} (plain : (Piece.word s).isPlain = true)
    (token : Sql.tokens b.dialect 0 (Sql.lexemes b.dialect s.toList) = [t])
    (item : Sql.Partial.start.next t = some (.start, some i)) (before : Nat) :
    Gives style before [.word s] [i] := by
  intro ts
  rw [tokens_word_cons b hb plain token, tokens_nil]
  exact Sql.items_item item ts

theorem gives_word_cons {s : String} {t : Token} {i : Item} {f : Fragment} {is : List Item}
    {before : Nat} (plain : (Piece.word s).isPlain = true)
    (token : Sql.tokens b.dialect 0 (Sql.lexemes b.dialect s.toList) = [t])
    (item : Sql.Partial.start.next t = some (.start, some i)) (hf : f.Gives style before is) :
    Gives style before (.word s :: f) (i :: is) :=
  Gives.append b hb (.single plain) (gives_word b hb plain token item before) hf

theorem Reads.group {before : Nat} {f : Fragment} {p : Predicate Operand} (spaced : f.WellSpaced)
    (hf : f.Reads style .search before p) : f.parenthesized.Reads style .primary before p := by
  obtain ⟨is, gives, derives⟩ := hf
  have opening : Sql.tokens b.dialect 0 (Sql.lexemes b.dialect "(".toList) = [.symbol "("] := by
    cases b <;> decide
  have closing : Sql.tokens b.dialect 0 (Sql.lexemes b.dialect ")".toList) = [.symbol ")"] := by
    cases b <;> decide
  refine ⟨_, ?_, .group derives⟩
  exact gives_word_cons b hb (by decide) opening rfl
    (.append b hb spaced gives (gives_word b hb (by decide) closing rfl _))

theorem Reads.not {before : Nat} {f : Fragment} {p : Predicate Operand}
    (hf : f.Reads style .primary before p) :
    Reads style .factor before (.word "NOT " :: f) (.not p) := by
  obtain ⟨is, gives, derives⟩ := hf
  have word : Sql.tokens b.dialect 0 (Sql.lexemes b.dialect "NOT ".toList) = [.word "NOT"] := by
    cases b <;> decide
  exact ⟨_, gives_word_cons b hb (by decide) word rfl gives, .not derives⟩

/-- Factors one after the other with a connective between them, the ones before each of
them joined to its first part. -/
theorem Reads.joined {separator : String} {t : Token} {i : Item} {category : Category}
    {join : Predicate Operand → Predicate Operand → Predicate Operand}
    (separates : Piece.separates separator = true)
    (token : Sql.tokens b.dialect 0 (Sql.lexemes b.dialect separator.toList) = [t])
    (item : Sql.Partial.start.next t = some (.start, some i))
    (derives : ∀ {is js p q}, Derives category is p → Derives .factor js q →
      Derives category (is ++ i :: js) (join p q))
    {before : Nat} {f : Fragment} {p : Predicate Operand} {fs : List Fragment}
    {ps : List (Predicate Operand)} (spaced : f.WellSpaced) (hf : f.Reads style category before p)
    (rest : ReadsAll style .factor (before + (f.bound style).length) fs ps) :
    (separatedBy separator (f :: fs)).Reads style category before (ps.foldl join p) := by
  obtain ⟨plain, starts, ends⟩ := Piece.separates_iff.mp separates
  rw [separatedBy_cons]
  generalize at' : before + (f.bound style).length = after at rest
  induction rest generalizing f p with
  | nil =>
    rw [List.flatMap_nil, List.append_nil]
    exact hf
  | @cons after g q fs ps spacedNext next _ ih =>
    obtain ⟨is, gives, derivesHere⟩ := hf
    obtain ⟨js, givesNext, derivesNext⟩ := next
    subst at'
    have both : Reads style category before (f ++ .word separator :: g) (join p q) :=
      ⟨_, gives.append b hb spaced (gives_word_cons b hb plain token item givesNext),
        derives derivesHere derivesNext⟩
    have spacedBoth : WellSpaced (f ++ .word separator :: g) :=
      spaced.append_word starts (spacedNext.word_cons plain ends)
    have := ih spacedBoth both (by simp [bound, Piece.bound]; omega)
    rw [List.flatMap_cons, ← List.append_assoc]
    exact this

end Fragment

/-! ## Conditions -/

namespace Predicate

omit hb in
/-- A condition binds the values of its predicate that are bound. -/
theorem bound_fragment (style : Style) (p : Predicate SqlValue) :
    (Condition.fragment (condition p)).bound style = p.bound style := by
  have sited := Condition.sited_fragment .postgres (condition p)
  rw [Fragment.bound_eq_filter, ← Fragment.map_snd_sites Dialect.postgres (.beside ""),
    bound, ← sites_condition]
  exact congrArg (fun sites => (List.map Prod.snd sites).filter style.binds) (sited.sites "")

/-- What is asserted of a predicate: its condition reads as an equivalent factor. -/
def ReadsBack (style : Style) (before : Nat) (p : Predicate SqlValue) : Prop :=
  ∃ q, (Condition.fragment (condition p)).Reads style .factor before q ∧
    Equivalent q (number style before p)

omit hb in
theorem ReadsBack.test {style : Style} {before : Nat} {p : Predicate SqlValue}
    (gives : (Condition.fragment (condition p)).Gives style before [.test (number style before p)]) :
    ReadsBack style before p :=
  ⟨_, ⟨_, gives, .plain (.test _)⟩, fun _ _ _ => rfl⟩

include hb

/-- Parts side by side, with AND between them, read as the term of all of them. -/
theorem reads_conjunction {before : Nat} {c : Condition} {cs : List Condition}
    {qs rs : List (Predicate Operand)}
    (reads : Fragment.ReadsAll style .factor before (Condition.fragments (c :: cs)) qs)
    (same : EquivalentAll qs rs) :
    ∃ q, (Fragment.separatedBy " AND " (Condition.fragments (c :: cs))).Reads style .term before q ∧
      Equivalent q (.all rs) := by
  have word : Sql.tokens b.dialect 0 (Sql.lexemes b.dialect " AND ".toList) = [.word "AND"] := by
    cases b <;> decide
  cases reads with
  | cons spaced first rest =>
    refine ⟨foldAll _ _, .joined b hb (by decide) word rfl .and spaced
      (first.imp .factor) rest, ?_⟩
    exact Equivalent.trans (fun _ _ _ => truth_foldAll _ _) same.all

theorem reads_disjunction {before : Nat} {c : Condition} {cs : List Condition}
    {qs rs : List (Predicate Operand)}
    (reads : Fragment.ReadsAll style .factor before (Condition.fragments (c :: cs)) qs)
    (same : EquivalentAll qs rs) :
    ∃ q, (Fragment.separatedBy " OR " (Condition.fragments (c :: cs))).Reads style .search before q ∧
      Equivalent q (.any rs) := by
  have word : Sql.tokens b.dialect 0 (Sql.lexemes b.dialect " OR ".toList) = [.word "OR"] := by
    cases b <;> decide
  cases reads with
  | cons spaced first rest =>
    refine ⟨foldAny _ _, .joined b hb (by decide) word rfl
      (fun before next => .or before (.factor next)) spaced
      (first.imp fun derives => .term (.factor derives)) rest, ?_⟩
    exact Equivalent.trans (fun _ _ _ => truth_foldAny _ _) same.any

/-- Parts as one: a single part is read as itself, several as a group in parentheses. -/
theorem readsBack_joined {before : Nat} {p : Predicate SqlValue} {parts : List (Predicate SqlValue)}
    {join : List Condition → Condition}
    {joined : List (Predicate Operand) → Predicate Operand} {separator : String}
    {qs : List (Predicate Operand)} (nonempty : parts ≠ [])
    (condition : p.condition = Condition.joined join (conditions parts))
    (number : p.number style before = joined (numberAll style before parts))
    (single : ∀ q, Equivalent q (joined [q]))
    (group : ∀ cs, Condition.fragment (join cs) =
      Fragment.parenthesized (Fragment.separatedBy separator (Condition.fragments cs)))
    (spaced : ∀ cs, (Fragment.separatedBy separator (Condition.fragments cs)).WellSpaced)
    (several : ∀ {c cs rs}, Fragment.ReadsAll style .factor before (Condition.fragments (c :: cs)) qs →
      EquivalentAll qs rs →
      ∃ q, (Fragment.separatedBy separator (Condition.fragments (c :: cs))).Reads style .search
        before q ∧ Equivalent q (joined rs))
    (reads : Fragment.ReadsAll style .factor before (Condition.fragments (conditions parts)) qs)
    (same : EquivalentAll qs (numberAll style before parts)) : ReadsBack style before p := by
  rw [ReadsBack, condition, number]
  cases parts with
  | nil => exact absurd rfl nonempty
  | cons p ps =>
    cases ps with
    | nil =>
      cases reads with
      | cons _ first rest =>
        cases rest
        cases same with
        | cons equal _ => exact ⟨_, first, equal.trans (single _)⟩
    | cons r rs =>
      obtain ⟨q, search, equal⟩ := several reads same
      have grouped := (Fragment.Reads.group b hb (spaced _) search).imp .plain
      rw [← group] at grouped
      exact ⟨q, grouped, equal⟩

/-- The negation of parts that are all to be met. -/
theorem readsBack_not {before : Nat} {c : Condition} {cs : List Condition}
    {qs rs : List (Predicate Operand)}
    (reads : Fragment.ReadsAll style .factor before (Condition.fragments (c :: cs)) qs)
    (same : EquivalentAll qs rs) :
    ∃ q, (Condition.fragment (.not (c :: cs))).Reads style .factor before q ∧
      Equivalent q (.not (.all rs)) := by
  obtain ⟨q, term, equal⟩ := reads_conjunction b hb reads same
  have spaced := (Condition.sited_conjunction b (c :: cs)).spaced
  exact ⟨.not q, .not b hb (.group b hb spaced (term.imp .term)), equal.not⟩

end Predicate
end Backend

namespace Predicate

mutual
/-- The condition of a predicate reads as that predicate: by recursion on it, every part
being one factor. -/
theorem reads_condition (b : Backend) {style : Style} (hb : style.dialect = b.dialect) :
    ∀ (p : Predicate SqlValue) (before : Nat), p.Writable → ReadsBack style before p
  | .isNull column, before, _ => .test (Condition.gives_isNull b hb before column)
  | .isNotNull column, before, _ => .test (Condition.gives_isNotNull b hb before column)
  | .compare column op v, before, _ => .test (Condition.gives_compare b hb before column op v)
  | .isIn column negated [], before, writable => by
    have inside : negated = false := by
      cases negated with
      | true => exact absurd rfl (writable rfl)
      | false => rfl
    subst inside
    exact ⟨_, ⟨_, Condition.gives_never b hb before, .plain (.test _)⟩, fun _ _ _ => rfl⟩
  | .isIn column negated (v :: vs), before, _ =>
    .test (Condition.gives_isIn b hb before column negated v vs)
  | .like column pattern _, before, rfl => .test (Condition.gives_like b hb before column pattern)
  | .never, before, _ => .test (Condition.gives_never b hb before)
  | .all parts, before, ⟨nonempty, writable⟩ => by
    obtain ⟨qs, reads, same⟩ := reads_conditions b hb parts before writable
    refine readsBack_joined b hb nonempty rfl rfl ?_ (fun _ => rfl)
      (Condition.spaced_separatedBy (by decide)) ?_ reads same
    · exact fun q _ _ _ => (truth_all_singleton q).symm
    · intro c cs rs reads same
      obtain ⟨q, term, equal⟩ := reads_conjunction b hb reads same
      exact ⟨q, term.imp .term, equal⟩
  | .any parts, before, ⟨nonempty, writable⟩ => by
    obtain ⟨qs, reads, same⟩ := reads_conditions b hb parts before writable
    refine readsBack_joined b hb nonempty rfl rfl ?_ (fun _ => rfl)
      (Condition.spaced_separatedBy (by decide)) ?_ reads same
    · exact fun q _ _ _ => (truth_any_singleton q).symm
    · exact reads_disjunction b hb
  | .not (.all []), _, ⟨nonempty, _⟩ => absurd rfl nonempty
  | .not (.all (p :: ps)), before, ⟨_, writable⟩ => by
    obtain ⟨qs, reads, same⟩ := reads_conditions b hb (p :: ps) before writable
    exact readsBack_not b hb reads same

theorem reads_conditions (b : Backend) {style : Style} (hb : style.dialect = b.dialect) :
    ∀ (ps : List (Predicate SqlValue)) (before : Nat), WritableAll ps →
      ∃ qs, Fragment.ReadsAll style .factor before (Condition.fragments (conditions ps)) qs ∧
        EquivalentAll qs (numberAll style before ps)
  | [], _, _ => ⟨[], .nil, .nil⟩
  | p :: ps, before, ⟨writable, others⟩ => by
    obtain ⟨q, first, equal⟩ := reads_condition b hb p before writable
    obtain ⟨qs, rest, same⟩ := reads_conditions b hb ps (before + (p.bound style).length) others
    have spaced := (Condition.sited_fragment b (condition p)).spaced
    refine ⟨q :: qs, .cons spaced first ?_, .cons equal same⟩
    rw [bound_fragment]
    exact rest
end

end Predicate
end DocTable
