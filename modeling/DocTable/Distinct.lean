/-!
# First occurrences

`distinctBy` keeps the first of the items that share a key, in their order.
-/

namespace DocTable
set_option autoImplicit false

variable {α β : Type} [DecidableEq β]

def distinctBy (key : α → β) : List α → List α
  | [] => []
  | x :: xs => x :: (distinctBy key xs).filter fun y => key y ≠ key x

theorem mem_of_mem_distinctBy {key : α → β} {xs : List α} {x : α}
    (h : x ∈ distinctBy key xs) : x ∈ xs := by
  induction xs with
  | nil => exact h
  | cons y ys ih =>
    rcases List.mem_cons.mp h with rfl | h
    · exact List.mem_cons_self
    · exact List.mem_cons_of_mem _ (ih (List.mem_filter.mp h).1)

/-- No key comes twice. -/
theorem nodup_map_distinctBy (key : α → β) (xs : List α) :
    ((distinctBy key xs).map key).Nodup := by
  induction xs with
  | nil => exact List.nodup_nil
  | cons x xs ih =>
    rw [distinctBy, List.map_cons, List.nodup_cons]
    constructor
    · intro h
      obtain ⟨y, hy, hk⟩ := List.mem_map.mp h
      exact (decide_eq_true_eq.mp (List.mem_filter.mp hy).2) hk
    · exact ih.sublist (List.filter_sublist.map key)

/-- Every key is still there. -/
theorem exists_mem_distinctBy {key : α → β} {xs : List α} {x : α} (h : x ∈ xs) :
    ∃ y ∈ distinctBy key xs, key y = key x := by
  induction xs with
  | nil => cases h
  | cons z zs ih =>
    by_cases hz : key x = key z
    · exact ⟨z, List.mem_cons_self, hz.symm⟩
    · rcases List.mem_cons.mp h with rfl | h
      · exact absurd rfl hz
      · obtain ⟨y, hy, hk⟩ := ih h
        refine ⟨y, List.mem_cons_of_mem _ (List.mem_filter.mpr ⟨hy, ?_⟩), hk⟩
        simpa [hk] using hz

/-- What has distinct keys is left as it is. -/
theorem distinctBy_of_nodup {key : α → β} {xs : List α} (h : (xs.map key).Nodup) :
    distinctBy key xs = xs := by
  induction xs with
  | nil => rfl
  | cons x xs ih =>
    rw [List.map_cons, List.nodup_cons] at h
    rw [distinctBy, ih h.2]
    congr 1
    apply List.filter_eq_self.mpr
    intro y hy
    simp only [decide_eq_true_eq]
    intro e
    exact h.1 (e ▸ List.mem_map_of_mem hy)

end DocTable
