import DocTable.Proofs.Condition.Sited
import DocTable.Proofs.Predicate.Numbered

/-!
# Tests are read back

The text of one test gives one item, over its operands as they are written
(`gives_compare`, `gives_isIn`, `gives_like`).
-/

namespace DocTable
set_option autoImplicit false
open Sql (Token Item Partial)

/-- The text of a fragment gives some items, wherever a test may start. -/
def Fragment.Gives (style : Style) (before : Nat) (f : Fragment) (is : List Item) : Prop :=
  ∀ ts, Sql.items .start (f.tokens style before ++ ts) = (Sql.items .start ts).map (is ++ ·)

section Backend

variable (b : Backend) {style : Style} (hb : style.dialect = b.dialect)
include hb

/-! ## Tokens one by one -/

theorem tokens_word {s : String} {ts : List Token} (plain : (Piece.word s).isPlain = true)
    (same : Sql.tokens b.dialect 0 (Sql.lexemes b.dialect s.toList) = ts) (before : Nat) :
    (Piece.word s).tokens style before = ts := by
  rw [← same, ← hb]
  exact Sql.tokens_before (Piece.not_placeholder b hb plain rfl before) before

namespace Fragment

theorem tokens_cons {p : Piece} (plain : p.isPlain = true) (before : Nat) (f : Fragment) :
    tokens style before (p :: f) =
      p.tokens style before ++ f.tokens style (before + (p.bound style).length) := by
  rw [tokens, lexemes, Sql.tokens_append, Piece.countPlaceholders_lexemes b hb plain]
  rfl

theorem tokens_word_cons {s : String} {ts : List Token} (plain : (Piece.word s).isPlain = true)
    (same : Sql.tokens b.dialect 0 (Sql.lexemes b.dialect s.toList) = ts) (before : Nat)
    (f : Fragment) : tokens style before (.word s :: f) = ts ++ f.tokens style before := by
  rw [tokens_cons b hb plain, tokens_word b hb plain same]
  rfl

theorem tokens_column_cons (before : Nat) (key : String) (f : Fragment) :
    tokens style before (.column key :: f) = .name key :: f.tokens style before := by
  rw [tokens_cons b hb rfl, Piece.tokens_column]
  rfl

omit hb in
theorem tokens_nil (style : Style) (before : Nat) : tokens style before [] = [] := rfl

end Fragment

/-! ## Tests -/

namespace Condition

theorem gives_isNull (before : Nat) (column : String) :
    (fragment (.isNull column)).Gives style before [.test (.isNull column)] := by
  intro ts
  have words : Sql.tokens b.dialect 0 (Sql.lexemes b.dialect " IS NULL".toList) =
      [.word "IS", .word "NULL"] := by
    cases b <;> decide
  rw [fragment, Fragment.tokens_column_cons b hb,
    Fragment.tokens_word_cons b hb (by decide) words, Fragment.tokens_nil]
  show Sql.items .start (.name column :: .word "IS" :: .word "NULL" :: ts) = _
  rw [Sql.items_within rfl, Sql.items_within rfl, Sql.items_item rfl]
  rfl

theorem gives_isNotNull (before : Nat) (column : String) :
    (fragment (.isNotNull column)).Gives style before [.test (.isNotNull column)] := by
  intro ts
  have words : Sql.tokens b.dialect 0 (Sql.lexemes b.dialect " IS NOT NULL".toList) =
      [.word "IS", .word "NOT", .word "NULL"] := by
    cases b <;> decide
  rw [fragment, Fragment.tokens_column_cons b hb,
    Fragment.tokens_word_cons b hb (by decide) words, Fragment.tokens_nil]
  show Sql.items .start (.name column :: .word "IS" :: .word "NOT" :: .word "NULL" :: ts) = _
  rw [Sql.items_within rfl, Sql.items_within rfl, Sql.items_within rfl, Sql.items_item rfl]
  rfl

theorem gives_never (before : Nat) : (fragment .never).Gives style before [.test .never] := by
  intro ts
  have words : Sql.tokens b.dialect 0 (Sql.lexemes b.dialect "1 = 0".toList) =
      [.value (.numeral "1"), .operator "=", .value (.numeral "0")] := by
    cases b <;> decide
  rw [fragment, Fragment.tokens_word_cons b hb (by decide) words, Fragment.tokens_nil]
  show Sql.items .start (.value (.numeral "1") :: .operator "=" :: .value (.numeral "0") :: ts) = _
  rw [Sql.items_within rfl, Sql.items_within rfl, Sql.items_item rfl]
  rfl

theorem gives_compare (before : Nat) (column : String) (op : Comparison) (v : SqlValue) :
    (fragment (.compare column op v)).Gives style before
      [.test (.compare column op (.of style before v))] := by
  intro ts
  have plain : (Piece.word (" " ++ op.symbol ++ " ")).isPlain = true := by
    cases op <;> decide
  have words : Sql.tokens b.dialect 0 (Sql.lexemes b.dialect (" " ++ op.symbol ++ " ").toList) =
      [.operator op.symbol] := by
    cases b <;> cases op <;> decide
  obtain ⟨t, token, operand⟩ := Piece.tokens_operand b hb before v
  rw [fragment, Fragment.tokens_column_cons b hb, Fragment.tokens_word_cons b hb plain words,
    Fragment.tokens_cons b hb rfl, token, Fragment.tokens_nil]
  show Sql.items .start (.name column :: .operator op.symbol :: t :: ts) = _
  have compared : (Partial.column column).next (.operator op.symbol) =
      some (.compared column op, none) := by
    show (Sql.comparison? op.symbol).map _ = _
    rw [Sql.comparison?_symbol]
    rfl
  rw [Sql.items_within rfl, Sql.items_within compared,
    Sql.items_item (Sql.next_compared operand column op)]
  rfl

theorem gives_like (before : Nat) (column : String) (pattern : SqlValue) :
    (fragment (.like column pattern)).Gives style before
      [.test (.like column (.of style before pattern) likeEscape)] := by
  intro ts
  have like : Sql.tokens b.dialect 0 (Sql.lexemes b.dialect " LIKE ".toList) = [.word "LIKE"] := by
    cases b <;> decide
  have escape : Sql.tokens b.dialect 0 (Sql.lexemes b.dialect " ESCAPE ".toList) =
      [.word "ESCAPE"] := by
    cases b <;> decide
  obtain ⟨t, token, operand⟩ := Piece.tokens_operand b hb before pattern
  rw [fragment, Fragment.tokens_column_cons b hb, Fragment.tokens_word_cons b hb (by decide) like,
    Fragment.tokens_cons b hb rfl, token, Fragment.tokens_word_cons b hb (by decide) escape,
    Fragment.tokens_cons b hb rfl, Piece.tokens_text b hb, Fragment.tokens_nil]
  show Sql.items .start (.name column :: .word "LIKE" :: t :: .word "ESCAPE" ::
    .value (.text likeEscape) :: ts) = _
  rw [Sql.items_within rfl, Sql.items_within rfl, Sql.items_within (Sql.next_like operand column),
    Sql.items_within rfl, Sql.items_item rfl]
  rfl

/-- The values of a list, after some members. -/
theorem items_values (column : String) (negated : Bool) (v : SqlValue) (vs : List SqlValue)
    (before : Nat) (members : List Operand) (ts : List Token) :
    Sql.items (.member column negated members)
        ((Fragment.values (v :: vs)).tokens style before ++ ts) =
      Sql.items (.members column negated
        (members ++ Predicate.numberValues style before (v :: vs))) ts := by
  induction vs generalizing v before members with
  | nil =>
    obtain ⟨t, token, operand⟩ := Piece.tokens_operand b hb before v
    have member := Sql.next_member operand column negated members
    show Sql.items _ (Fragment.tokens style before [.operand v] ++ ts) = _
    rw [Fragment.tokens_cons b hb rfl, token, Fragment.tokens_nil]
    exact Sql.items_within member ts
  | cons w ws ih =>
    have comma : Sql.tokens b.dialect 0 (Sql.lexemes b.dialect ", ".toList) = [.symbol ","] := by
      cases b <;> decide
    obtain ⟨t, token, operand⟩ := Piece.tokens_operand b hb before v
    have member := Sql.next_member operand column negated members
    have count : ((Piece.operand v).bound style).length = ([v].filter style.binds).length := by
      cases binds : style.binds v <;> simp [Piece.bound, binds]
    show Sql.items _ (Fragment.tokens style before
      (.operand v :: .word ", " :: Fragment.values (w :: ws)) ++ ts) = _
    rw [Fragment.tokens_cons b hb rfl, token, Fragment.tokens_word_cons b hb (by decide) comma,
      count, Predicate.numberValues]
    show Sql.items _ (t :: .symbol "," :: (Fragment.values (w :: ws)).tokens style _ ++ ts) = _
    rw [List.cons_append, List.cons_append, Sql.items_within member, Sql.items_within rfl, ih,
      List.append_assoc]
    rfl

theorem gives_isIn (before : Nat) (column : String) (negated : Bool) (v : SqlValue)
    (vs : List SqlValue) :
    (fragment (.isIn column negated (v :: vs))).Gives style before
      [.test (.isIn column negated (Predicate.numberValues style before (v :: vs)))] := by
  intro ts
  have list : (fragment (.isIn column negated (v :: vs))).tokens style before ++ ts =
      .name column :: ((if negated then [.word "NOT", .word "IN"] else [.word "IN"]) ++
        .symbol "(" :: ((Fragment.values (v :: vs)).tokens style before ++
          .symbol ")" :: ts)) := by
    have opening : Sql.tokens b.dialect 0 (Sql.lexemes b.dialect "(".toList) = [.symbol "("] := by
      cases b <;> decide
    have closing : Sql.tokens b.dialect 0 (Sql.lexemes b.dialect ")".toList) = [.symbol ")"] := by
      cases b <;> decide
    have word : Sql.tokens b.dialect 0
        (Sql.lexemes b.dialect (if negated then " NOT IN " else " IN ").toList) =
        if negated then [.word "NOT", .word "IN"] else [.word "IN"] := by
      cases b <;> cases negated <;> decide
    have plain : (Piece.word (if negated then " NOT IN " else " IN ")).isPlain = true := by
      cases negated <;> decide
    have shape : fragment (.isIn column negated (v :: vs)) =
        .column column :: .word (if negated then " NOT IN " else " IN ") ::
          .word "(" :: (Fragment.values (v :: vs) ++ [.word ")"]) := rfl
    rw [shape, Fragment.tokens_column_cons b hb, Fragment.tokens_word_cons b hb plain word,
      Fragment.tokens_word_cons b hb (by decide) opening,
      Fragment.tokens_append b hb (Fragment.wellSpaced_values (v :: vs)).plain,
      Fragment.tokens_word_cons b hb (by decide) closing, Fragment.tokens_nil]
    simp
  have values := items_values b hb column negated v vs before [] (.symbol ")" :: ts)
  rw [list, Sql.items_within rfl]
  cases negated with
  | true =>
    show Sql.items _ (.word "NOT" :: .word "IN" :: .symbol "(" :: _) = _
    rw [Sql.items_within rfl, Sql.items_within rfl, Sql.items_within rfl, values]
    exact Sql.items_item rfl ts
  | false =>
    show Sql.items _ (.word "IN" :: .symbol "(" :: _) = _
    rw [Sql.items_within rfl, Sql.items_within rfl, values]
    exact Sql.items_item rfl ts

end Condition
end Backend
end DocTable
