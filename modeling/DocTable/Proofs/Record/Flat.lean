import DocTable.Proofs.Record.Leaves

/-!
# Flat records

A flat record holds its own leaves, each under its column key. Flattening any record gives a flat
one (`isFlat_flatten`) and leaves just the flat ones as they are (`flatten_eq_members_iff`), so
flattening again changes nothing (`flatten_flatten`).
-/

namespace DocTable.Record
set_option autoImplicit false

/-- Members that are leaves already: no objects with members, under column keys, and none of
these twice. -/
structure IsFlat (members : Json.Members) : Prop where
  keys : ∀ m ∈ members, Path.flatten m.1 = m.1
  leaves : ∀ m ∈ members, m.2.isLeaf = true
  distinct : members.keys.Nodup

theorem IsFlat.dot_not_mem {members : Json.Members} (flat : IsFlat members) {m : String × Json}
    (mem : m ∈ members) : '.' ∉ m.1.toList := by
  rw [← flat.keys m mem]
  exact Path.dot_not_mem_flatten m.1

/-! ## What flattening gives -/

theorem isFlat_flatten (r : Record) : IsFlat r.flatten := by
  have given : ∀ m ∈ r.flatten, ∃ leaf ∈ r.leaves, (Path.columnKey leaf.1, leaf.2) = m := by
    intro m mem
    rw [flatten_eq_ofList] at mem
    exact List.mem_map.mp (Json.Members.mem_of_mem_ofList mem)
  constructor
  case keys =>
    intro m mem
    obtain ⟨leaf, -, rfl⟩ := given m mem
    exact Path.flatten_columnKey leaf.1
  case leaves =>
    intro m mem
    obtain ⟨leaf, inside, rfl⟩ := given m mem
    exact isLeaf_of_mem_leaves inside
  case distinct => exact nodup_keys_flatten r

/-! ## What flattening leaves as it is -/

variable {r : Record}

theorem leavesOf_of_forall {members : Json.Members} (plain : ∀ m ∈ members, m.2.isLeaf = true) :
    leavesOf members = members.map fun m => ([m.1], m.2) := by
  induction members with
  | nil => rfl
  | cons m more ih =>
    obtain ⟨name, v⟩ := m
    obtain ⟨first, others⟩ := List.forall_mem_cons.mp plain
    rw [leavesOf, leavesAt_of_isLeaf first, ih others]
    rfl

/-- The members of a flat record are its leaves under their column keys. -/
theorem keyedLeaves_of_isFlat (flat : IsFlat r.members) : r.keyedLeaves = r.members := by
  have each : ∀ m ∈ r.members, (Path.columnKey [m.1], m.2) = m := by
    intro m mem
    rw [Path.columnKey_singleton, flat.keys m mem]
  rw [keyedLeaves, Record.leaves, leavesOf_of_forall flat.leaves, List.map_map]
  exact (List.map_congr_left each).trans (List.map_id _)

theorem flatten_of_isFlat (flat : IsFlat r.members) : r.flatten = r.members := by
  have same := keyedLeaves_of_isFlat flat
  have distinct : r.keyedLeaves.keys.Nodup := by
    rw [same]
    exact flat.distinct
  rw [flatten_eq distinct, same]

/-- Flattening leaves the flat records as they are, and no others. -/
theorem flatten_eq_members_iff : r.flatten = r.members ↔ IsFlat r.members := by
  constructor
  · intro same
    rw [← same]
    exact isFlat_flatten r
  · exact flatten_of_isFlat

theorem flatten_flatten (r : Record) : flatten ⟨r.flatten⟩ = r.flatten :=
  flatten_of_isFlat (isFlat_flatten r)

end DocTable.Record
