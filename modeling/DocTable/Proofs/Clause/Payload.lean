import DocTable.Proofs.Record.Leaves
import DocTable.Proofs.Registry.OfSchema
import DocTable.Proofs.Table.Request

/-!
# What insertions and updates read in a record

An insertion looks a column up under three spellings of its path, an update takes every leaf
by its column key. Both read the same when every leaf is spelled as an insertion looks for it
(`reads_alike_iff`). A nested object under a dotted name is one that is not, and an insertion
passes over what an update assigns (`reads_differ`).
-/

namespace DocTable
set_option autoImplicit false

/-- The chains of names under which a record gives a field, the first one found counting. -/
def Field.spellings (f : Field) : List (List String) :=
  [[f.key], [f.sourcePath], Path.segments f.sourcePath]

namespace Record

variable {record : Record} {f : Field} {names : List String} {v : Json}

theorem field?_eq (record : Record) (f : Field) :
    record.field? f =
      f.spellings.findSome? fun names => Json.walk? names (.obj record.members) := by
  have one (name : String) :
      Json.walk? [name] (.obj record.members) = record.members.get? name := by
    rw [Json.walk?]
    cases record.members.get? name <;> rfl
  rw [field?, Field.spellings, List.findSome?_cons, List.findSome?_cons, List.findSome?_cons, one,
    one, List.findSome?_nil]
  cases record.members.get? f.key <;> cases record.members.get? f.sourcePath <;>
    cases Json.walk? (Path.segments f.sourcePath) (.obj record.members) <;> rfl

theorem ne_nil_of_mem_spellings (mem : names ∈ f.spellings) : names ≠ [] := by
  have segments : Path.segments f.sourcePath ≠ [] := fun none =>
    Text.splitChars_ne_nil '.' f.sourcePath.toList (List.map_eq_nil_iff.mp none)
  simp only [Field.spellings, List.mem_cons, List.not_mem_nil, or_false] at mem
  rcases mem with rfl | rfl | rfl
  · exact List.cons_ne_nil _ _
  · exact List.cons_ne_nil _ _
  · exact segments

/-- Every spelling of a column has its key. -/
theorem columnKey_of_mem_spellings (flattened : f.IsFlattened)
    (word : Identifier.isWord f.key.toList = true) (mem : names ∈ f.spellings) :
    Path.columnKey names = f.key := by
  simp only [Field.spellings, List.mem_cons, List.not_mem_nil, or_false] at mem
  rcases mem with rfl | rfl | rfl
  · rw [Path.columnKey_singleton, Path.flatten_of_isWord word]
  · rw [Path.columnKey_singleton, flattened]
  · rw [Path.columnKey_segments (flattened ▸ word), flattened]

/-- Present leaves of the field are found, each under one of the spellings, and what is found
is a leaf. -/
structure Spells (record : Record) (f : Field) : Prop where
  leaves : ∀ leaf ∈ record.leaves, leaf.2.isPresent = true → Path.columnKey leaf.1 = f.key →
    leaf.1 ∈ f.spellings
  plain : ∀ v, record.field? f = some v → v.isLeaf = true

variable (keyed : Json.isKeyedMembers record.members = true)
include keyed

theorem mem_leaves_of_field? (found : record.field? f = some v) (leaf : v.isLeaf = true) :
    ∃ names ∈ f.spellings, (names, v) ∈ record.leaves := by
  rw [field?_eq] at found
  obtain ⟨names, mem, walked⟩ := List.exists_of_findSome?_eq_some found
  exact ⟨names, mem, (mem_leaves keyed (ne_nil_of_mem_spellings mem)).mpr ⟨walked, leaf⟩⟩

variable (distinct : record.keyedLeaves.keys.Nodup) (flattened : f.IsFlattened)
  (word : Identifier.isWord f.key.toList = true)
include distinct flattened word

/-- A leaf of a column is what is found for it when it is spelled so and nothing but a leaf is
found. -/
theorem field?_eq_some_iff (mem : (names, v) ∈ record.leaves)
    (key : Path.columnKey names = f.key) :
    record.field? f = some v ↔
      names ∈ f.spellings ∧ ∀ w, record.field? f = some w → w.isLeaf = true := by
  -- Any leaf that is found has the column's key too, and no two leaves share a key.
  have only : ∀ w, record.field? f = some w → w.isLeaf = true → names ∈ f.spellings ∧ w = v := by
    intro w found leaf
    obtain ⟨others, spelled, other⟩ := mem_leaves_of_field? keyed found leaf
    have same := eq_of_columnKey distinct mem other
      (key.trans (columnKey_of_mem_spellings flattened word spelled).symm)
    cases same
    exact ⟨spelled, rfl⟩
  have leaf := isLeaf_of_mem_leaves mem
  constructor
  · intro found
    refine ⟨(only v found leaf).1, fun w foundToo => ?_⟩
    obtain rfl := Option.some.inj (found.symm.trans foundToo)
    exact leaf
  · rintro ⟨spelled, plain⟩
    have walked := ((mem_leaves keyed (ne_nil_of_mem_spellings spelled)).mp mem).1
    cases found : record.field? f with
    | none =>
      rw [field?_eq, List.findSome?_eq_none_iff] at found
      rw [found names spelled] at walked
      cases walked
    | some w => rw [(only w found (plain w found)).2]

/-- What is found for a column is what flattening gives it, on present values. -/
theorem found_iff_flattened :
    (∀ v, v.isPresent = true → (record.field? f = some v ↔ record.flatten.get? f.key = some v)) ↔
      record.Spells f := by
  constructor
  · intro alike
    refine ⟨fun ⟨names, v⟩ mem present key => ?_, fun v found => ?_⟩
    · have found := (alike v present).mpr ((get?_flatten distinct).mpr ⟨names, mem, key⟩)
      exact ((field?_eq_some_iff keyed distinct flattened word mem key).mp found).1
    · cases leaf : v.isLeaf with
      | true => rfl
      | false =>
        obtain ⟨m, ms, rfl⟩ := Json.isLeaf_eq_false_iff.mp leaf
        obtain ⟨names, mem, -⟩ := (get?_flatten distinct).mp ((alike _ rfl).mp found)
        exact isLeaf_of_mem_leaves mem
  · intro spells v present
    constructor
    · intro found
      obtain ⟨names, spelled, mem⟩ := mem_leaves_of_field? keyed found (spells.plain v found)
      exact (get?_flatten distinct).mpr
        ⟨names, mem, columnKey_of_mem_spellings flattened word spelled⟩
    · intro given
      obtain ⟨names, mem, key⟩ := (get?_flatten distinct).mp given
      exact (field?_eq_some_iff keyed distinct flattened word mem key).mpr
        ⟨spells.leaves _ mem present key, spells.plain⟩

end Record

namespace Request

variable {r : Registry} {record : Record} {f : Field} {v : Json}

/-- An insertion gives a column what it finds for it. -/
theorem mem_ofRecord :
    ⟨f, v⟩ ∈ ofRecord r record ↔
      f ∈ r.fields ∧ record.field? f = some v ∧ v.isPresent = true := by
  rw [ofRecord, List.mem_filterMap]
  constructor
  · rintro ⟨g, mem, given⟩
    obtain ⟨w, filled, same⟩ := Option.map_eq_some_iff.mp given
    cases same
    exact ⟨mem, Option.filter_eq_some_iff.mp filled⟩
  · rintro ⟨mem, found⟩
    exact ⟨f, mem, Option.map_eq_some_iff.mpr ⟨v, Option.filter_eq_some_iff.mpr found, rfl⟩⟩

/-- An update gives a column what flattening gives it. -/
theorem mem_ofLeaf (known : r.get? f.key = some f) (notKey : f.isPrimaryKey = false) :
    ⟨f, v⟩ ∈ record.flatten.filterMap (ofLeaf r) ↔ (f.key, v) ∈ record.flatten := by
  rw [List.mem_filterMap]
  constructor
  · rintro ⟨⟨key, w⟩, mem, given⟩
    unfold ofLeaf at given
    cases found : r.get? key with
    | none =>
      rw [found] at given
      cases given
    | some g =>
      rw [found] at given
      dsimp only at given
      split at given
      · cases given
      · cases given
        rwa [Registry.key_of_get? found]
  · intro mem
    refine ⟨_, mem, ?_⟩
    rw [ofLeaf, known]
    simp [notKey]

end Request

namespace Clause

theorem filter_eq_filter_iff {α : Type} {keep : α → Bool} {a b : Option α} :
    a.filter keep = b.filter keep ↔ ∀ x, keep x = true → (a = some x ↔ b = some x) := by
  rw [Option.ext_iff]
  refine forall_congr' fun x => ?_
  rw [Option.filter_eq_some_iff, Option.filter_eq_some_iff]
  exact ⟨fun h kept => by simpa [kept] using h, fun h => and_congr_left h⟩

/-- **Insertions and updates read alike** a column of a record without repeated keys exactly
when the record spells the column as an insertion looks for it. -/
theorem reads_alike_iff {schema : Json} {r : Registry} {record : Record} {f : Field}
    (built : Registry.ofSchema schema = .ok r)
    (keyed : Json.isKeyedMembers record.members = true)
    (distinct : record.keyedLeaves.keys.Nodup) (mem : f ∈ r.fields)
    (notKey : f.isPrimaryKey = false) :
    ((record.field? f).filter Json.isPresent =
        (record.flatten.get? f.key).filter Json.isPresent ↔ record.Spells f) ∧
    ((∀ v, v.isPresent = true → (⟨f, v⟩ ∈ Request.ofRecord r record ↔
        ⟨f, v⟩ ∈ record.flatten.filterMap (Request.ofLeaf r))) ↔ record.Spells f) := by
  have formed := Registry.wellFormed_ofSchema built
  have found := Record.found_iff_flattened keyed distinct (formed.flattened f mem)
    (formed.word f mem)
  refine ⟨filter_eq_filter_iff.trans found, Iff.trans ?_ found⟩
  refine forall_congr' fun v => imp_congr_right fun present => ?_
  have given : (⟨f, v⟩ ∈ Request.ofRecord r record) ↔ record.field? f = some v := by
    simp [Request.mem_ofRecord, mem, present]
  have assigned : (⟨f, v⟩ ∈ record.flatten.filterMap (Request.ofLeaf r)) ↔
      record.flatten.get? f.key = some v := by
    rw [Request.mem_ofLeaf (formed.get?_key mem) notKey, Record.get?_flatten distinct,
      Record.flatten_eq distinct, Record.mem_keyedLeaves]
  rw [given, assigned]

/-- Residents with a name and, two objects deep, the floor they live on. -/
def residents : Json :=
  .obj [("required", .arr []), ("properties", .obj [
    ("name", .obj [("type", .str "string")]),
    ("address", .obj [("type", .str "object"), ("required", .arr []), ("properties", .obj [
      ("house", .obj [("type", .str "object"), ("required", .arr []), ("properties", .obj [
        ("floor", .obj [("type", .str "integer")])])])])])])]

def residentName : Field := ⟨"name", "name", .text, false, false, false, none⟩

def residentFloor : Field :=
  ⟨"address___house___floor", "address.house.floor", .number, false, false, false, none⟩

/-- Objects within objects spell the floor as an insertion looks for it. -/
theorem spells_nested :
    Record.Spells ⟨[("address", .obj [("house", .obj [("floor", .num (.int 3))])])]⟩
      residentFloor :=
  have built : Registry.ofSchema residents = .ok ⟨[residentName, residentFloor]⟩ := rfl
  (reads_alike_iff built (by decide +kernel) (by decide +kernel) (by decide) rfl).1.mp
    (by decide +kernel)

/-- A nested object under a dotted name gives an update a floor, and an insertion none. -/
theorem reads_differ :
    ¬ ∀ (schema : Json) (r : Registry) (record : Record) (f : Field),
      Registry.ofSchema schema = .ok r → Json.isKeyedMembers record.members = true →
      record.keyedLeaves.keys.Nodup → f ∈ r.fields → f.isPrimaryKey = false →
      (record.field? f).filter Json.isPresent =
        (record.flatten.get? f.key).filter Json.isPresent := by
  intro alike
  have same := alike residents ⟨[residentName, residentFloor]⟩
    ⟨[("name", .str "Ada"), ("address.house", .obj [("floor", .num (.int 3))])]⟩ residentFloor
    rfl (by decide +kernel) (by decide +kernel) (by decide) rfl
  revert same
  decide +kernel

end Clause
end DocTable
