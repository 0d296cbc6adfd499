import DocTable.ColumnType
import DocTable.Path

/-!
# The columns of a table

The key column comes first, then the columns of the schema in its order. A name
that a client gives is looked up as it is, and then as a dotted path.
-/

namespace DocTable
set_option autoImplicit false

structure Registry where
  /-- The fields after the primary key. -/
  columns : List Field
  deriving DecidableEq, Repr, Inhabited

namespace Registry

def fields (r : Registry) : List Field := Field.primaryKey :: r.columns

def keys (r : Registry) : List String := r.fields.map Field.key

def size (r : Registry) : Nat := r.fields.length

/-- The place of each key among the fields. Of a key that comes twice, the last place is found. -/
def index (r : Registry) : List (String × Nat) := r.keys.zipIdx.reverse

/-- The field with a column key, by its place in the index. -/
def get? (r : Registry) (key : String) : Option Field :=
  (r.index.lookup key).bind fun place => r.fields[place]?

/-- The field that a client's name stands for: a column key or a dotted path. -/
def resolve? (r : Registry) (name : String) : Option Field :=
  let name := Text.trim name
  if name.isEmpty then none
  else
    match r.get? name with
    | some f => some f
    | none => r.get? (Path.flatten name)

/-- The index lists each key with the places where the key stands. -/
theorem mem_index {r : Registry} {key : String} {place : Nat} :
    (key, place) ∈ r.index ↔ (r.fields[place]?).map Field.key = some key := by
  rw [index, List.mem_reverse, List.mem_zipIdx_iff_getElem?, keys, List.getElem?_map]

theorem mem_index_of_lookup {r : Registry} {key : String} {place : Nat}
    (found : r.index.lookup key = some place) : (key, place) ∈ r.index := by
  obtain ⟨before, after, split, -⟩ := List.lookup_eq_some_iff.mp found
  exact split ▸ List.mem_append_right before List.mem_cons_self

theorem key_of_get? {r : Registry} {key : String} {f : Field} (h : r.get? key = some f) :
    f.key = key := by
  obtain ⟨place, found, there⟩ := Option.bind_eq_some_iff.mp h
  have indexed := mem_index.mp (mem_index_of_lookup found)
  rw [there] at indexed
  exact Option.some.inj indexed

theorem mem_fields_of_get? {r : Registry} {key : String} {f : Field} (h : r.get? key = some f) :
    f ∈ r.fields := by
  obtain ⟨place, -, there⟩ := Option.bind_eq_some_iff.mp h
  exact List.mem_of_getElem? there

theorem mem_fields_of_resolve? {r : Registry} {name : String} {f : Field}
    (h : r.resolve? name = some f) : f ∈ r.fields := by
  simp only [resolve?] at h
  split at h
  · simp at h
  · split at h
    · rename_i g hg
      exact Option.some.inj h ▸ mem_fields_of_get? hg
    · exact mem_fields_of_get? h

end Registry
end DocTable
