import DocTable.Proofs.Statement.Outcome
import DocTable.Registry.OfSchema
import Mathlib.Data.List.Nodup

/-!
# Registries of schemas

Whatever the schema, its registry is well formed (`wellFormed_ofSchema`): every field has
the key of its path, every key is a plain word, and no key comes twice.
-/

namespace DocTable
set_option autoImplicit false

/-- A field's key is its path, flattened. -/
def Field.IsFlattened (f : Field) : Prop := f.key = Path.flatten f.sourcePath

structure Registry.WellFormed (r : Registry) : Prop where
  flattened : ∀ f ∈ r.fields, f.IsFlattened
  word : ∀ f ∈ r.fields, Identifier.isWord f.key.toList = true
  nodup : r.keys.Nodup

namespace Schema

theorem isFlattened_leaf {path type : String} {isRequired : Bool} {property : Json.Members}
    {f : Field} (ok : leaf path isRequired type property = .ok f) : f.IsFlattened := by
  unfold leaf at ok
  split at ok
  · cases ok
  · obtain rfl := Except.ok.inj ok
    rw [Field.IsFlattened]

mutual
/-- By recursion on the schema, as its columns are collected. -/
theorem isFlattened_level : ∀ (members : List (String × Json)) {parent : Option String}
    {whole : Json.Members} {fs : List Field},
    level parent whole members = .ok fs → ∀ f ∈ fs, f.IsFlattened
  | [], _, _, _, ok => by cases ok
  | (key, .obj properties) :: more, parent, whole, fs, ok => by
    rw [level] at ok
    split at ok
    · obtain ⟨names, -, ok⟩ := Except.ok_bind.mp ok
      exact isFlattened_properties properties ok
    · exact isFlattened_level more ok
  | (key, .null) :: more, _, _, _, ok | (key, .bool _) :: more, _, _, _, ok
  | (key, .num _) :: more, _, _, _, ok | (key, .str _) :: more, _, _, _, ok
  | (key, .arr _) :: more, _, _, _, ok => by
    rw [level] at ok
    · split at ok
      · cases ok
      · exact isFlattened_level more ok
    · exact nofun

theorem isFlattened_properties : ∀ (properties : List (String × Json)) {parent : Option String}
    {names : List String} {fs : List Field},
    propertyColumns parent names properties = .ok fs → ∀ f ∈ fs, f.IsFlattened
  | [], _, _, _, ok => by
    cases ok
    exact List.forall_mem_nil _
  | (name, property) :: more, parent, names, fs, ok => by
    rw [propertyColumns] at ok
    split at ok
    · exact isFlattened_properties more ok
    split at ok
    · cases ok
    obtain ⟨here, first, ok⟩ := Except.ok_bind.mp ok
    obtain ⟨rest, others, ok⟩ := Except.ok_bind.mp ok
    cases ok
    intro f hf
    rcases List.mem_append.mp hf with hf | hf
    · exact isFlattened_property property first f hf
    · exact isFlattened_properties more others f hf

theorem isFlattened_property : ∀ (property : Json) {path : String} {isRequired : Bool}
    {fs : List Field},
    columnsOfProperty path isRequired property = .ok fs → ∀ f ∈ fs, f.IsFlattened
  | .obj members, path, isRequired, fs, ok => by
    rw [columnsOfProperty] at ok
    obtain ⟨type, -, ok⟩ := Except.ok_bind.mp ok
    split at ok
    · exact isFlattened_level members ok
    · obtain ⟨f, column, ok⟩ := Except.ok_bind.mp ok
      cases ok
      simpa using isFlattened_leaf column
  | .null, _, _, _, ok | .bool _, _, _, _, ok | .num _, _, _, _, ok | .str _, _, _, _, ok
  | .arr _, _, _, _, ok => by cases ok
end

/-- Keys pass when they are identifiers, and differ from each other and from those seen. -/
theorem checkKeys_eq_ok_iff {seen : List String} {fs : List Field} :
    checkKeys seen fs = .ok () ↔
      (∀ f ∈ fs, Identifier.isWord f.key.toList = true ∧
        f.key.utf8ByteSize ≤ Identifier.maxLength) ∧
      (fs.map Field.key).Nodup ∧ ∀ f ∈ fs, f.key ∉ seen := by
  induction fs generalizing seen with
  | nil => simp [checkKeys]
  | cons f fs ih =>
    rw [checkKeys, List.forall_mem_cons, List.forall_mem_cons, List.map_cons, List.nodup_cons,
      ← Identifier.check_eq_ok_iff]
    cases Identifier.check f.key with
    | error cause => simp
    | ok =>
      by_cases old : f.key ∈ seen
      · simp [old]
      · have apart : (∀ g ∈ fs, g.key ∉ f.key :: seen) ↔
            f.key ∉ fs.map Field.key ∧ ∀ g ∈ fs, g.key ∉ seen := by
          simp only [List.mem_cons, not_or, List.mem_map, not_exists, not_and]
          exact forall₂_and
        simp only [List.contains_eq_mem, old, decide_false, Bool.false_eq_true, if_false, ih,
          apart, true_and, not_false_eq_true]
        tauto

end Schema

namespace Registry

theorem wellFormed_ofSchema {schema : Json} {r : Registry} (built : ofSchema schema = .ok r) :
    r.WellFormed := by
  obtain ⟨columns, collected, built⟩ := Except.ok_bind.mp built
  obtain ⟨⟨⟩, checked, built⟩ := Except.ok_bind.mp built
  cases built
  obtain ⟨identifiers, distinct, -⟩ := Schema.checkKeys_eq_ok_iff.mp checked
  have key : Field.primaryKey.IsFlattened := by
    rw [Field.IsFlattened]
    decide +kernel
  have flattened := Schema.isFlattened_level _ collected
  exact ⟨List.forall_mem_cons.mpr ⟨key, flattened⟩, fun f mem => (identifiers f mem).1, distinct⟩

/-- Columns of one key are one column. -/
theorem eq_of_key {r : Registry} (distinct : r.keys.Nodup) {f g : Field} (hf : f ∈ r.fields)
    (hg : g ∈ r.fields) (same : f.key = g.key) : f = g :=
  List.inj_on_of_nodup_map distinct hf hg same

namespace WellFormed

variable {r : Registry} {f : Field}

/-- A column's key finds the column. -/
theorem get?_key (h : r.WellFormed) (mem : f ∈ r.fields) : r.get? f.key = some f := by
  obtain ⟨place, there⟩ := List.mem_iff_getElem?.mp mem
  have indexed : (f.key, place) ∈ r.index := mem_index.mpr (by rw [there]; rfl)
  obtain ⟨last, found⟩ : ∃ last, r.index.lookup f.key = some last := by
    rw [← Option.isSome_iff_exists, List.lookup_isSome_iff]
    exact ⟨_, indexed, beq_self_eq_true f.key⟩
  obtain ⟨g, last_there, same⟩ :=
    Option.map_eq_some_iff.mp (mem_index.mp (mem_index_of_lookup found))
  rw [get?, found, Option.bind_some, last_there,
    eq_of_key h.nodup (List.mem_of_getElem? last_there) mem same]

theorem get?_eq_some_iff (h : r.WellFormed) {key : String} :
    r.get? key = some f ↔ f ∈ r.fields ∧ f.key = key := by
  constructor
  · exact fun found => ⟨mem_fields_of_get? found, key_of_get? found⟩
  · rintro ⟨mem, rfl⟩
    exact h.get?_key mem

end WellFormed
end Registry
end DocTable
