import DocTable.Proofs.Clause.Payload
import DocTable.Proofs.Clause.Spelling
import DocTable.Proofs.Record.Flat

/-!
# Flattened records

Flattening is a normal form of records (`Table.flattening_normal`): what it gives is flat and
says the same to an update, and however a record spells a column, one value in it comes out under
the column's key.
-/

namespace DocTable
set_option autoImplicit false

/-! ## One value -/

namespace Record

variable {v : Json}

/-- A leaf below some names is the only leaf there. -/
theorem leavesAt_under (leaf : v.isLeaf = true) (names : List String) :
    leavesAt (v.under names) = [(names, v)] := by
  induction names with
  | nil => exact leavesAt_of_isLeaf leaf
  | cons name more ih =>
    rw [Json.under, leavesAt, leavesOf, leavesOf, ih]
    rfl

theorem flatten_under (leaf : v.isLeaf = true) (name : String) (more : List String) :
    flatten ⟨[(name, v.under more)]⟩ = [(Path.columnKey (name :: more), v)] := by
  have only : (Record.mk [(name, v.under more)]).leaves = [(name :: more, v)] := by
    rw [leaves, leavesOf, leavesOf, leavesAt_under leaf]
    rfl
  rw [flatten_eq_ofList, keyedLeaves, only]
  rfl

end Record

/-- Names that spell a column are a chain with its key. -/
theorem Registry.WellFormed.columnKey_of_isSpelled {r : Registry} {f : Field} {name : String}
    {more : List String} (h : r.WellFormed) (mem : f ∈ r.fields) (spelled : f.IsSpelled name more) :
    Path.columnKey (name :: more) = f.key := by
  rcases spelled with ⟨rfl, rfl⟩ | path
  · rw [Path.columnKey_singleton, Path.flatten_of_isWord (h.word f mem)]
  · have word := h.isWord_path mem
    rw [← path] at word
    rw [Path.columnKey_of_isWord word, path, h.flattened f mem]

namespace Table

/-- Of a record, an update reads its leaves under their column keys. -/
theorem updateStatement_of_flatten {record other : Record} (same : record.flatten = other.flatten)
    (t : Table) (ids : String) : t.updateStatement ids record = t.updateStatement ids other := by
  rw [updateStatement, updateStatement, updateDraft, updateDraft, Clause.assignments,
    Clause.assignments, same]

/-- **Flattening is a normal form of records.** What any record is flattened to has no dots in
its keys and no objects with members; flattening it again gives the same in the same order, and
an update by it is the same statement, or refused for the same reason. A single value comes out
under the column's key, whatever cut of the column's path spells the column: each segment in an
object of its own, the whole path as one name, or anything between. -/
theorem flattening_normal :
    (∀ record : Record,
      (∀ m ∈ record.flatten, '.' ∉ m.1.toList ∧ m.2.isLeaf = true) ∧
      Record.flatten ⟨record.flatten⟩ = record.flatten ∧
      ∀ (t : Table) (ids : String),
        t.updateStatement ids ⟨record.flatten⟩ = t.updateStatement ids record) ∧
    ∀ (schema : Json) (r : Registry), Registry.ofSchema schema = .ok r → ∀ f ∈ r.fields,
      ∀ (name : String) (more : List String), f.IsSpelled name more →
      ∀ v : Json, v.isLeaf = true → Record.flatten ⟨[(name, v.under more)]⟩ = [(f.key, v)] := by
  constructor
  · intro record
    have flat := record.isFlat_flatten
    refine ⟨fun m mem => ⟨flat.dot_not_mem mem, flat.leaves m mem⟩, record.flatten_flatten, ?_⟩
    exact updateStatement_of_flatten record.flatten_flatten
  · intro schema r built f mem name more spelled v leaf
    have formed := Registry.wellFormed_ofSchema built
    rw [Record.flatten_under leaf, formed.columnKey_of_isSpelled mem spelled]

/-- Leaves under names with blanks and dots, two of them for the floor. -/
def scattered : Record :=
  ⟨[("address", .obj [(" house.floor ", .num (.int 3)), ("", .obj [])]), (" name ", .null),
    ("address.house", .obj [("floor", .num (.int 4))])]⟩

/-- All cuts of the floor's path into names, and leaves that are not under their keys yet. -/
theorem flattening_normal_residents :
    Registry.ofSchema Clause.residents = .ok ⟨[Clause.residentName, Clause.residentFloor]⟩ ∧
    (∀ cut ∈ [("address", ["house", "floor"]), ("address", ["house.floor"]),
        ("address.house", ["floor"]), ("address.house.floor", [])],
      Record.flatten ⟨[(cut.1, (Json.num (.int 3)).under cut.2)]⟩ =
        [("address___house___floor", .num (.int 3))]) ∧
    scattered.flatten = [("address___house___floor", .num (.int 4)), ("address___", .obj []),
      ("name", .null)] ∧
    Record.flatten ⟨scattered.flatten⟩ = scattered.flatten ∧ '.' ∉ "address___".toList := by
  have built : Registry.ofSchema Clause.residents =
    .ok ⟨[Clause.residentName, Clause.residentFloor]⟩ := rfl
  have cuts : ∀ cut ∈ [("address", ["house", "floor"]), ("address", ["house.floor"]),
      ("address.house", ["floor"]), ("address.house.floor", [])],
      ".".intercalate (cut.1 :: cut.2) = Clause.residentFloor.sourcePath := by
    decide +kernel
  have leaves : scattered.flatten = [("address___house___floor", .num (.int 4)),
      ("address___", .obj []), ("name", .null)] := by
    decide +kernel
  have mem : ("address___", .obj []) ∈ scattered.flatten := by simp [leaves]
  obtain ⟨flat, again, -⟩ := flattening_normal.1 scattered
  refine ⟨built, fun cut given => ?_, leaves, again, (flat _ mem).1⟩
  exact flattening_normal.2 _ _ built Clause.residentFloor (by decide) cut.1 cut.2
    (.inr (cuts cut given)) _ rfl

end Table
end DocTable
