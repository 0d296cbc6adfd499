import DocTable.Clause.Page
import Mathlib.Data.List.Forall2

/-!
# Pages of a list

The window of a count and a page leaves just the block of rows that they ask for, although its
offset is cut where it is beyond 64 bits: no list has rows there (`lists_block_iff`). So the
pages of one size are the list, block by block (`lists_pages`).
-/

namespace DocTable
set_option autoImplicit false

/-! ## Page clauses -/

namespace Backend

/-- The clause that asks for some rows after some others. -/
def pageClause : Backend → Nat → Nat → String
  | .postgres, limit, offset | .mysql, limit, offset =>
    "LIMIT " ++ toString limit ++ " OFFSET " ++ toString offset
  | .mssql, limit, offset | .oracle, limit, offset =>
    "OFFSET " ++ toString offset ++ " ROWS FETCH FIRST " ++ toString limit ++ " ROWS ONLY"

variable (b : Backend)

theorem pageText_eq (limit offset : Nat) :
    b.dialect.pageText limit offset = b.pageClause limit offset := by
  cases b <;> simp [dialect, Dialect.pageText, pageClause, Dialect.postgres, Dialect.mysql,
    Dialect.mssql, Dialect.oracle, Dialect.limitOffset, Dialect.offsetFetch, String.join]

theorem toString_inj {m n : Nat} (same : toString m = toString n) : m = n := by
  have read (k : Nat) : Nat.ofDigitChars 10 (toString k).toList 0 = k := by
    rw [Nat.toString_eq_ofList_toDigits, String.toList_ofList, Nat.ofDigitChars_ten_toDigits]
  rw [← read m, same, read n]

/-- A number ends where its digits do. -/
theorem digits_inj {m n : Nat} {r s : List Char}
    (same : (toString m).toList ++ ' ' :: r = (toString n).toList ++ ' ' :: s) :
    m = n ∧ r = s := by
  have digits (k : Nat) : ∀ c ∈ (toString k).toList, c.isDigit = true := by
    intro c mem
    rw [Nat.toString_eq_ofList_toDigits, String.toList_ofList] at mem
    exact Nat.isDigit_of_mem_toDigits (by decide) (by decide) mem
  have cut (k : Nat) (t : List Char) :
      ((toString k).toList ++ ' ' :: t).takeWhile Char.isDigit = (toString k).toList ∧
        ((toString k).toList ++ ' ' :: t).dropWhile Char.isDigit = ' ' :: t := by
    rw [List.takeWhile_append_of_pos (digits k), List.dropWhile_append_of_pos (digits k)]
    simp
  have first := (cut m r).1
  have rest := (cut m r).2
  rw [same, (cut n s).1] at first
  rw [same, (cut n s).2] at rest
  exact ⟨(toString_inj (String.toList_inj.mp first)).symm, (List.cons.inj rest).2.symm⟩

/-- A page clause is the clause of one window only. -/
theorem pageClause_inj {limit offset limit' offset' : Nat}
    (same : b.pageClause limit offset = b.pageClause limit' offset') :
    limit = limit' ∧ offset = offset' := by
  have chars := congrArg String.toList same
  cases b with
  | postgres | mysql =>
    simp only [pageClause, String.toList_append, List.append_assoc, List.append_cancel_left_eq]
      at chars
    obtain ⟨rfl, rest⟩ := digits_inj chars
    exact ⟨rfl, toString_inj (String.toList_inj.mp (List.append_cancel_left rest))⟩
  | mssql | oracle =>
    simp only [pageClause, String.toList_append, List.append_assoc, List.append_cancel_left_eq]
      at chars
    obtain ⟨rfl, rest⟩ := digits_inj chars
    obtain ⟨rfl, -⟩ := digits_inj (List.append_cancel_left rest)
    exact ⟨rfl, rfl⟩

end Backend

namespace Clause

variable {α : Type} {count page : Option Int} {configured : Int}

/-! ## Blocks of rows -/

/-- The rows with a number of a page, the first of them one, when pages have one size. -/
def block (size number : Nat) (rows : List α) : List α :=
  (rows.drop ((number - 1) * size)).take size

theorem flatMap_block (size n : Nat) (rows : List α) :
    ((List.range n).flatMap fun k => block size (k + 1) rows) = rows.take (n * size) := by
  induction n with
  | zero => rw [Nat.zero_mul, List.take_zero]; rfl
  | succ n ih =>
    rw [List.range_succ, List.flatMap_append, ih, List.flatMap_singleton, Nat.succ_mul,
      List.take_add]
    rfl

/-- An offset beyond 64 bits is past all rows, and so it is where it is cut. -/
theorem block_eq (size number : Nat) {rows : List α}
    (storable : rows.length ≤ Bounds.maxUInt64) :
    (rows.drop (min ((number - 1) * size) Bounds.maxUInt64)).take size = block size number rows := by
  rw [block]
  by_cases fits : (number - 1) * size ≤ Bounds.maxUInt64
  · rw [Nat.min_eq_left fits]
  · have past := Nat.le_of_not_le fits
    rw [Nat.min_eq_right past, List.drop_eq_nil_of_le storable,
      List.drop_eq_nil_of_le (Nat.le_trans storable past)]

/-! ## What is asked for -/

/-- The count if it is positive, or else the configured one if that is, or else thirty. -/
def pageSize (count : Option Int) (configured : Int) : Nat :=
  if 0 < count.getD 0 then (count.getD 0).toNat
  else if 0 < configured then configured.toNat
  else 30

/-- The page if it is positive, or else the first. -/
def pageNumber (page : Option Int) : Nat :=
  if 0 < page.getD 1 then (page.getD 1).toNat else 1

theorem pageNumber_succ (k : Nat) : pageNumber (some (k + 1 : Nat)) = k + 1 := by
  rw [pageNumber, Option.getD_some, if_pos (by omega), Int.toNat_natCast]

theorem window?_eq_none_iff : window? count page configured = none ↔ count = some (-1) := by
  unfold window?
  split
  · rename_i all
    exact iff_of_true rfl all
  · rename_i limited
    exact iff_of_false nofun limited

theorem toNat_positiveOr (given : Option Int) (other : Int) :
    (positiveOr given other).toNat = if 0 < given.getD 0 then (given.getD 0).toNat
      else other.toNat := by
  cases given with
  | none => rfl
  | some n =>
    rw [positiveOr, Option.getD_some]
    split <;> rfl

theorem window?_of_limited (limited : count ≠ some (-1)) :
    window? count page configured = some ⟨pageSize count configured,
      min ((pageNumber page - 1) * pageSize count configured) Bounds.maxUInt64⟩ := by
  have size : (positiveOr count (positiveOr (some configured) defaultCount)).toNat =
      pageSize count configured := by
    rw [toNat_positiveOr, toNat_positiveOr]
    rfl
  have number : (positiveOr page 1).toNat = pageNumber page := by
    cases page with
    | none => rfl
    | some n =>
      rw [positiveOr, pageNumber, Option.getD_some]
      split <;> rfl
  rw [window?, if_neg (show ¬ count = some unlimited from limited)]
  dsimp only
  rw [size, number]

/-- Numbers that are not positive count as absent. -/
theorem positiveOr_filter (keep : Int → Bool) (positives : ∀ n, 0 < n → keep n = true)
    (given : Option Int) (other : Int) :
    positiveOr (given.filter keep) other = positiveOr given other := by
  cases given with
  | none => rfl
  | some n =>
    rw [Option.filter_some]
    split
    · rfl
    · rename_i dropped
      have negative : ¬ 0 < n := fun positive => dropped (positives n positive)
      rw [positiveOr, positiveOr, if_neg negative]

theorem window?_filter (count page : Option Int) (configured : Int) :
    window? (count.filter fun n => decide (0 < n ∨ n = unlimited))
      (page.filter fun n => decide (0 < n)) configured = window? count page configured := by
  have asksAll : (count.filter fun n => decide (0 < n ∨ n = unlimited)) = some unlimited ↔
      count = some unlimited := by
    rw [Option.filter_eq_some_iff]
    simp
  have countKept := positiveOr_filter (fun n => decide (0 < n ∨ n = unlimited))
    (fun n positive => decide_eq_true (.inl positive)) count
  have pageKept := positiveOr_filter (fun n => decide (0 < n))
    (fun n positive => decide_eq_true positive) page
  simp only [window?, asksAll, countKept, pageKept]

/-! ## What a clause lists -/

/-- The clause of the window that a count and a page ask for. -/
def clause? (b : Backend) (count page : Option Int) (configured : Int) : Option String :=
  (window? count page configured).map (Window.text b.dialect)

/-- What a list gives of its rows: all of them without a page clause, or the window of one. -/
inductive Lists (b : Backend) (rows : List α) : Option String → List α → Prop where
  | all : Lists b rows none rows
  | page (limit offset : Nat) :
      Lists b rows (some (b.pageClause limit offset)) ((rows.drop offset).take limit)

variable {b : Backend}

theorem clause?_of_limited (limited : count ≠ some (-1)) :
    clause? b count page configured = some (b.pageClause (pageSize count configured)
      (min ((pageNumber page - 1) * pageSize count configured) Bounds.maxUInt64)) := by
  rw [clause?, window?_of_limited limited, Option.map_some, Window.text, b.pageText_eq]

theorem lists_page_iff {rows out : List α} {limit offset : Nat} :
    Lists b rows (some (b.pageClause limit offset)) out ↔ out = (rows.drop offset).take limit := by
  constructor
  · intro lists
    generalize written : some (b.pageClause limit offset) = clause at lists
    cases lists with
    | all => cases written
    | page limit' offset' =>
      obtain ⟨rfl, rfl⟩ := b.pageClause_inj (Option.some.inj written)
      rfl
  · rintro rfl
    exact .page limit offset

theorem lists_block_iff (limited : count ≠ some (-1)) {rows out : List α}
    (storable : rows.length ≤ Bounds.maxUInt64) :
    Lists b rows (clause? b count page configured) out ↔
      out = block (pageSize count configured) (pageNumber page) rows := by
  rw [clause?_of_limited limited, lists_page_iff, block_eq _ _ storable]

/-- The first pages, one after the other, are the first rows. -/
theorem lists_pages (limited : count ≠ some (-1)) {rows : List α} {n : Nat} {outs : List (List α)}
    (storable : rows.length ≤ Bounds.maxUInt64)
    (lists : List.Forall₂
      (fun k out => Lists b rows (clause? b count (some (k + 1 : Nat)) configured) out)
      (List.range n) outs) :
    outs.flatten = rows.take (n * pageSize count configured) := by
  have blocks : (List.range n).map (fun k => block (pageSize count configured) (k + 1) rows) =
      outs := by
    rw [← List.forall₂_eq_eq_eq, List.forall₂_map_left_iff]
    refine lists.imp fun k out listed => ?_
    rw [(lists_block_iff limited storable).mp listed, pageNumber_succ]
  rw [← blocks, ← List.flatMap_def, flatMap_block]

end Clause

end DocTable
