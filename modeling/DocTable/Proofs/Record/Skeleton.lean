import DocTable.Proofs.Json.Skeleton

/-!
# Flattened skeletons

Flattening looks at names and nesting only, so the skeleton of a record flattens to the
skeletons of its leaves (`flatten_skeleton`).
-/

namespace DocTable.Record
set_option autoImplicit false

/-- A leaf with the skeleton of its value. -/
def leafSkeleton (leaf : String × Json) : String × Json :=
  (leaf.1, Json.skeleton keeps leaf.2)

theorem set_leafSkeleton (key : String) (v : Json) (leaves : Json.Members) :
    Json.Members.set key (Json.skeleton keeps v) (leaves.map leafSkeleton) =
      (Json.Members.set key v leaves).map leafSkeleton := by
  induction leaves with
  | nil => rfl
  | cons leaf leaves ih =>
    obtain ⟨name, w⟩ := leaf
    by_cases same : name = key <;>
      simp [Json.Members.set, leafSkeleton, same, ← ih]

mutual
theorem flattenMembers_skeleton (parent : Option String) :
    ∀ (members : List (String × Json)) (leaves : Json.Members),
      flattenMembers parent (Json.skeletonMembers keeps members) (leaves.map leafSkeleton) =
        (flattenMembers parent members leaves).map leafSkeleton
  | [], leaves => rfl
  | (name, value) :: more, leaves => by
    rw [Json.skeletonMembers, flattenMembers, flattenMembers, keeps, if_neg Bool.false_ne_true]
    rw [flattenValue_skeleton, flattenMembers_skeleton parent more]

theorem flattenValue_skeleton (key : String) :
    ∀ (v : Json) (leaves : Json.Members),
      flattenValue key (Json.skeleton keeps v) (leaves.map leafSkeleton) =
        (flattenValue key v leaves).map leafSkeleton
  | .obj (m :: ms), leaves => flattenMembers_skeleton (some key) (m :: ms) leaves
  | .obj [], leaves => set_leafSkeleton key (.obj []) leaves
  | .arr items, leaves => set_leafSkeleton key (.arr items) leaves
  | .null, leaves => set_leafSkeleton key .null leaves
  | .bool b, leaves => set_leafSkeleton key (.bool b) leaves
  | .num n, leaves => set_leafSkeleton key (.num n) leaves
  | .str s, leaves => set_leafSkeleton key (.str s) leaves
end

/-- The leaves of a record's skeleton are those of the record, as skeletons. -/
theorem flatten_skeleton (r : Record) :
    flatten ⟨r.skeleton⟩ = r.flatten.map leafSkeleton :=
  flattenMembers_skeleton none r.members []

end DocTable.Record
