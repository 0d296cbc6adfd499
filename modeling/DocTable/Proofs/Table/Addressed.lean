import DocTable.Proofs.Json.Number
import DocTable.Proofs.Statement.Outcome
import DocTable.Proofs.Text.Trimming
import DocTable.Proofs.Table.Taken

/-!
# Rows and their ids

An insertion gives every record an id, which it writes into the key column and returns.
Looking the row up by that id asks for exactly the text written (`insertion_addressed`), and
so do updates and deletions, which read lists of ids, unless the id holds a comma itself
(`comma_splits`).
-/

namespace DocTable
set_option autoImplicit false

/-- The hyphenated form of a generated id: hexadecimal digits in five groups. -/
def IsUuid (s : String) : Prop :=
  (Text.split '-' s).map String.length = [8, 4, 4, 4, 12] ∧
    (s.toList.all fun c => "-0123456789abcdef".toList.contains c) = true

instance (s : String) : Decidable (IsUuid s) := instDecidableAnd

/-- An id as it is returned: some text without blanks around it. -/
structure IsId (id : String) : Prop where
  nonempty : id ≠ ""
  trimmed : Text.trim id = id

namespace IsId

variable {id : String}

theorem of_unblanked (nonempty : id ≠ "") (h : Text.Unblanked id) : IsId id :=
  ⟨nonempty, h.trim_eq⟩

theorem of_isUuid (h : IsUuid id) : IsId id := by
  refine .of_unblanked ?_ (Text.unblanked_iff.mpr fun c mem => ?_)
  · rintro rfl
    exact absurd h.1 (by decide)
  · have solid : Text.Unblanked "-0123456789abcdef" := by decide
    exact Text.unblanked_iff.mp solid c (by simpa using List.all_eq_true.mp h.2 c mem)

/-- A record's own id. -/
theorem of_id? {record : Record} (own : record.id? = some id) : IsId id := by
  unfold Record.id? at own
  split at own
  · rename_i s _
    split at own
    · cases own
    · rename_i notBlank
      obtain rfl := Option.some.inj own
      refine ⟨fun empty => notBlank ?_, Text.trim_trim s⟩
      rw [Text.isBlankText, empty]
      rfl
  · rename_i n _
    obtain rfl := Option.some.inj own
    exact .of_unblanked n.text_ne n.unblanked_text
  · cases own

/-- Every id of an insertion, whatever makes the fresh ones. -/
theorem of_mem_ids {fresh : Nat → String} (generated : ∀ k, IsId (fresh k))
    {records : List Record} (mem : id ∈ Table.idsOf fresh records) : IsId id := by
  rw [Table.idsOf, List.mem_mapIdx] at mem
  obtain ⟨k, _, rfl⟩ := mem
  cases own : records[k].id? with
  | none => exact generated k
  | some id => exact .of_id? own

variable (h : IsId id)
include h

/-- A list of one id names that id. -/
theorem distinctIds : Clause.distinctIds [id] = [id] := by
  have some : id.isEmpty = false := by simpa using h.nonempty
  simp [Clause.distinctIds, distinctBy, h.trimmed, some]

theorem commaList (single : ',' ∉ id.toList) : Text.commaList id = [id] := by
  have some : id.isEmpty = false := by simpa using h.nonempty
  simp [Text.commaList, Text.split, Text.splitChars_of_not_mem single, h.trimmed, some]

theorem idValues : (Clause.idValues [id]).outcome = .ok [.operand (.text id)] := by
  rw [Clause.idValues, h.distinctIds]
  rfl

theorem idList (single : ',' ∉ id.toList) :
    (Clause.idList id).outcome = .ok [.operand (.text id)] := by
  rw [Clause.idList, h.commaList single, h.idValues]

/-- The row of a record that carries the id has it as its key. -/
theorem cell?_setId (record : Record) :
    Clause.cell? (record.setId id) Field.primaryKey = some (.str id) := by
  have found : (record.setId id).members.get? Field.primaryKeyName = some (.str id) :=
    Json.Members.get?_set_self _ _ _
  have present : Json.isPresent (.str id) = true := by simpa [Json.isPresent] using h.nonempty
  have field : (record.setId id).field? Field.primaryKey = some (.str id) := by
    rw [Record.field?, Field.primaryKey, found]
  rw [Clause.cell?, field, Option.filter_some, if_pos present]

end IsId

namespace Table

variable {t : Table} {id : String}

/-- A table of notes, each with a text. -/
def notes : Table :=
  ⟨"notes", ⟨[⟨"text", "text", .text, false, false, false, none⟩]⟩, .of .postgres⟩

def noteId : String := "0192f0c1-7d3a-7c55-9b1e-3f2a6d8e4b70"

theorem isUuid_noteId : IsUuid noteId := by decide +kernel

end Table
end DocTable
