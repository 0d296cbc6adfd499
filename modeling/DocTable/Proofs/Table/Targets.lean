import DocTable.Proofs.Distinct.FirstOccurrences
import DocTable.Proofs.Statement.InTurn
import DocTable.Proofs.Table.Assigned

/-!
# Rows that a text of ids names

A text names ids, with commas between them. Deletions and updates by a text reach the rows with
just these ids as keys, and are refused when there are none (`Table.ids_targeted`). Whoever joins
ids without commas names just these ids, whatever blanks stand around them.
-/

namespace DocTable
set_option autoImplicit false

/-! ## The ids of a text -/

namespace Text

variable {text id : String}

theorem isId_of_mem_commaList (mem : id ∈ commaList text) : IsId id := by
  obtain ⟨listed, some⟩ := List.mem_filter.mp mem
  obtain ⟨piece, -, rfl⟩ := List.mem_map.mp listed
  exact ⟨by simpa using some, trim_trim piece⟩

theorem commaList_eq_nil_iff :
    commaList text = [] ↔ ∀ piece ∈ split ',' text, trim piece = "" := by
  simp [commaList, List.filter_eq_nil_iff]

theorem map_trim_of_padded {ss spelled : List String} (padded : List.Forall₂ Padded ss spelled) :
    spelled.map trim = ss.map trim := by
  induction padded with
  | nil => rfl
  | cons first _ ih => rw [List.map_cons, List.map_cons, first.trim_eq, ih]

end Text

/-- The ids that a text names: of its pieces between commas, trimmed, those that are not blank,
each where it comes first. -/
def NamesIds (text : String) (ids : List String) : Prop :=
  FirstOccurrences id (((Text.split ',' text).map Text.trim).filter fun piece => piece ≠ "") ids

namespace NamesIds

variable {text : String} {ids : List String}

theorem of_distinctIds (text : String) :
    NamesIds text (Clause.distinctIds (Text.commaList text)) := by
  have pieces : Text.commaList text =
      ((Text.split ',' text).map Text.trim).filter fun piece => piece ≠ "" :=
    List.filter_congr fun piece _ => by rw [Bool.eq_iff_iff]; simp
  rw [Clause.distinctIds_of_isId fun _ => Text.isId_of_mem_commaList, pieces]
  exact .of_distinctBy id _

theorem distinctIds_eq (h : NamesIds text ids) :
    Clause.distinctIds (Text.commaList text) = ids :=
  (of_distinctIds text).unique h

theorem eq_nil_iff (h : NamesIds text ids) :
    ids = [] ↔ ∀ piece ∈ Text.split ',' text, Text.trim piece = "" := by
  rw [← h.distinctIds_eq, ← Text.commaList_eq_nil_iff,
    Clause.distinctIds_of_isId fun _ => Text.isId_of_mem_commaList]
  cases Text.commaList text <;> simp [distinctBy]

/-- Distinct ids without commas are named when they are joined, with any blanks around them. -/
theorem of_intercalate {spelled : List String} (distinct : ids.Nodup)
    (each : ∀ id ∈ ids, IsId id ∧ ',' ∉ id.toList)
    (padded : List.Forall₂ Text.Padded ids spelled) : NamesIds (",".intercalate spelled) ids := by
  rcases eq_or_ne spelled [] with rfl | some
  · cases padded
    exact .nil
  have clean : ∀ piece ∈ spelled, ',' ∉ piece.toList := by
    intro piece mem
    obtain ⟨id, named, around⟩ := exists_of_forall₂ padded.flip mem
    exact Text.Padded.not_mem around (by decide) (each id named).2
  have pieces : Text.split ',' (",".intercalate spelled) = spelled :=
    Text.split_intercalate some clean
  have trimmed : spelled.map Text.trim = ids := by
    rw [Text.map_trim_of_padded padded,
      List.map_congr_left fun id mem => (each id mem).1.trimmed, List.map_id']
  have kept : ids.filter (fun id => id ≠ "") = ids :=
    List.filter_eq_self.mpr fun id mem => by simpa using (each id mem).1.nonempty
  have first := FirstOccurrences.of_distinctBy id ids
  rw [distinctBy_of_nodup (by rwa [List.map_id])] at first
  rwa [NamesIds, pieces, trimmed, kept]

end NamesIds

/-! ## Conditions on the key -/

theorem Fragment.statement_append (style : Style) (f g : Fragment) :
    (f ++ g).statement style = ⟨f.text style 0 ++ g.text style (f.bound style).length,
      f.bound style ++ g.bound style⟩ := by
  rw [statement, text_append, Nat.zero_add, bound_append]

theorem Fragment.operands_values (vs : List SqlValue) : (values vs).operands = vs := by
  rw [values, operands_commas, List.flatMap_map]
  exact List.flatMap_singleton' vs

namespace Table

variable {t : Table} {text : String} {ids : List String}

/-- The condition that the key is one of some ids, when `before` values are bound already. -/
def keyAmongText (t : Table) (before : Nat) (ids : List String) : String :=
  " WHERE " ++ t.config.dialect.quoteName Field.primaryKeyName ++ " IN (" ++
    ", ".intercalate (ids.mapIdx fun k id =>
      if t.config.inline then t.config.dialect.quoteText id
      else t.config.dialect.placeholder (before + k + 1)) ++ ")"

/-- What is bound for some ids. -/
def boundIds (t : Table) (ids : List String) : List SqlValue :=
  if t.config.inline then [] else ids.map .text

theorem binds_id (t : Table) (id : String) :
    t.config.style.binds (.text id) = !t.config.inline := by
  rw [Style.binds, Config.style_inline]
  exact Bool.and_true _

theorem bound_idOperands (t : Table) (ids : List String) :
    (Fragment.values (ids.map SqlValue.text)).bound t.config.style = t.boundIds ids := by
  rw [Fragment.bound_eq_filter, Fragment.operands_values, List.filter_map, boundIds]
  cases inline : t.config.inline <;> simp [Function.comp_def, binds_id, inline]

theorem text_id (t : Table) (before : Nat) (id : String) :
    Fragment.text t.config.style before [.operand (.text id)] =
      if t.config.inline then t.config.dialect.quoteText id
      else t.config.dialect.placeholder (before + 1) := by
  show (Piece.operand (.text id)).text t.config.style before ++ "" = _
  rw [String.append_empty, Piece.text, binds_id]
  cases t.config.inline <;> rfl

theorem text_idOperands (t : Table) (before : Nat) (ids : List String) :
    (Fragment.values (ids.map SqlValue.text)).text t.config.style before =
      ", ".intercalate (ids.mapIdx fun k id =>
        if t.config.inline then t.config.dialect.quoteText id
        else t.config.dialect.placeholder (before + k + 1)) := by
  rw [Fragment.values, List.map_map, Fragment.commas]
  refine (Fragment.text_separatedBy (fun id => t.bound_idOperands [id]) t.text_id ", " before
    ids).trans (congrArg _ ?_)
  cases inline : t.config.inline with
  | true =>
    have alike : inTurn (fun id => t.boundIds [id]) (fun _ id => t.config.dialect.quoteText id)
        before ids = ids.map t.config.dialect.quoteText :=
      inTurn_eq_map _ (fun _ id => t.config.dialect.quoteText id) (fun _ _ => rfl) before ids
    simp only [if_true, alike]
    exact List.ext_getElem (by simp) (by simp)
  | false =>
    refine inTurn_eq_mapIdx _ _ (fun id => ?_) before ids
    rw [boundIds, inline]
    rfl

theorem text_keyAmong (t : Table) (before : Nat) (ids : List String) :
    (keyAmong (Fragment.values (ids.map SqlValue.text))).text t.config.style before =
      t.keyAmongText before ids := by
  have head : Fragment.text t.config.style before
      [.word " WHERE ", .column Field.primaryKeyName, .word " IN "] =
        " WHERE " ++ t.config.dialect.quoteName Field.primaryKeyName ++ " IN " := by
    simp [Fragment.text, Piece.text, Config.style, Style.of, String.append_assoc]
  rw [keyAmong, Fragment.text_append, Fragment.text_parenthesized, head, keyAmongText,
    ← text_idOperands]
  apply String.toList_inj.mp
  simp [Fragment.bound, Piece.bound]

theorem bound_keyAmong (t : Table) (ids : List String) :
    (keyAmong (Fragment.values (ids.map SqlValue.text))).bound t.config.style = t.boundIds ids := by
  rw [← bound_idOperands, Fragment.bound_eq_filter, Fragment.bound_eq_filter, keyAmong,
    Fragment.operands_append, Fragment.operands_parenthesized]
  rfl

/-- Deletions and updates by a text reach the rows with some ids as keys: an update whatever
the record assigns that it accepts. Without ids both are refused, whatever the record is. -/
structure Targets (t : Table) (text : String) (ids : List String) : Prop where
  refused : ids = [] → t.deleteStatement text = .error .noIdProvided ∧
    ∀ record, t.updateStatement text record = .error .noIdProvided
  delete : ids ≠ [] → t.deleteStatement text =
    .ok ⟨"DELETE FROM " ++ t.config.dialect.quoteTable t.name ++ t.keyAmongText 0 ids,
      t.boundIds ids⟩
  update : ids ≠ [] → ∀ record, t.updateStatement text record =
    (Clause.assignments t.registry t.config.policy record).outcome.map fun f =>
      ⟨"UPDATE " ++ t.config.dialect.quoteTable t.name ++ " SET " ++ f.text t.config.style 0 ++
        t.keyAmongText (f.bound t.config.style).length ids,
        f.bound t.config.style ++ t.boundIds ids⟩

theorem targets_of_names (t : Table) (named : NamesIds text ids) : t.Targets text ids := by
  have listed : (Clause.idList text).outcome = if ids = [] then .error .noIdProvided
      else .ok (Fragment.values (ids.map SqlValue.text)) := by
    rw [Clause.idList, Clause.idValues_eq, named.distinctIds_eq]
  have empty : (Text.commaList text).isEmpty = true ↔ ids = [] := by
    rw [List.isEmpty_iff, Text.commaList_eq_nil_iff, named.eq_nil_iff]
  constructor
  case refused =>
    intro none
    rw [if_pos none] at listed
    constructor
    · rw [deleteStatement_of_draft, deleteDraft, Draft.outcome_bind, listed]
      rfl
    · intro record
      rw [updateStatement_of_draft, updateDraft, if_pos (empty.mpr none)]
      rfl
  case delete =>
    intro some
    rw [if_neg some] at listed
    rw [deleteStatement_of_draft, deleteDraft, Draft.outcome_bind, listed]
    refine congrArg Except.ok ((Fragment.statement_append _ _ _).trans ?_)
    rw [text_keyAmong, bound_keyAmong]
    simp [Fragment.text, Piece.text, Fragment.bound, Piece.bound, Config.style, Style.of]
  case update =>
    intro some record
    rw [if_neg some] at listed
    rw [updateStatement_of_draft, updateDraft, if_neg (mt empty.mp some), Draft.outcome_bind]
    cases (Clause.assignments t.registry t.config.policy record).outcome with
    | error e => rfl
    | ok f =>
      rw [Except.bind, Draft.outcome_bind, listed]
      refine congrArg Except.ok ((Fragment.statement_append _ _ _).trans ?_)
      rw [text_keyAmong, bound_keyAmong]
      simp [Fragment.text, Piece.text, Fragment.bound, Piece.bound, Config.style, Style.of,
        String.append_assoc]

/-- **The rows of a text of ids.** A deletion is refused for want of ids just when all pieces
between commas are blank, and then every update is, whatever its record. Otherwise both reach
the rows with the ids that the text names, and those only, in their order. Distinct ids without
commas are named by joining them, with any blanks around them. -/
theorem ids_targeted (t : Table) (text : String) :
    (t.deleteStatement text = .error .noIdProvided ↔
      ∀ piece ∈ Text.split ',' text, Text.trim piece = "") ∧
    (∃ ids, NamesIds text ids ∧ t.Targets text ids ∧
      (ids = [] ↔ ∀ piece ∈ Text.split ',' text, Text.trim piece = "")) ∧
    ∀ ids spelled : List String, ids.Nodup → (∀ id ∈ ids, IsId id ∧ ',' ∉ id.toList) →
      List.Forall₂ Text.Padded ids spelled → t.Targets (",".intercalate spelled) ids := by
  have named := NamesIds.of_distinctIds text
  have targets := targets_of_names t named
  refine ⟨?_, ⟨_, named, targets, named.eq_nil_iff⟩, ?_⟩
  · rw [← named.eq_nil_iff]
    constructor
    · intro refused
      by_contra some
      cases (targets.delete some).symm.trans refused
    · exact fun none => (targets.refused none).1
  · intro ids spelled distinct each padded
    exact targets_of_names t (.of_intercalate distinct each padded)

/-- Ids with blanks around them are targeted as they are. -/
theorem spaced_ids_targeted :
    notes.updateStatement "  n 1 ,b\t" ⟨[("text", .str "a")]⟩ = .ok
      ⟨"UPDATE \"notes\" SET \"text\" = $1 WHERE \"_id\" IN ($2, $3)",
        [.text "a", .text "n 1", .text "b"]⟩ ∧
    notes.deleteStatement "  n 1 ,b\t" = .ok
      ⟨"DELETE FROM \"notes\" WHERE \"_id\" IN ($1, $2)", [.text "n 1", .text "b"]⟩ := by
  have padded : List.Forall₂ Text.Padded ["n 1", "b"] ["  n 1 ", "b\t"] := by
    refine .cons ⟨"  ", " ", by decide, ?_, ?_⟩ (.cons ⟨"", "\t", by decide, ?_, ?_⟩ .nil)
    all_goals exact List.all_eq_true.mp (by decide)
  have each : ∀ id ∈ ["n 1", "b"], IsId id ∧ ',' ∉ id.toList := by
    simp only [List.forall_mem_cons]
    exact ⟨⟨⟨by decide, by decide⟩, by decide⟩, ⟨⟨by decide, by decide⟩, by decide⟩,
      List.forall_mem_nil _⟩
  have targets := (ids_targeted notes "").2.2 ["n 1", "b"] _ (by decide) each padded
  have some : ["n 1", "b"] ≠ [] := by decide
  refine ⟨(targets.update some ⟨[("text", .str "a")]⟩).trans ?_, (targets.delete some).trans ?_⟩
  · decide +kernel
  · decide +kernel

end Table
end DocTable
