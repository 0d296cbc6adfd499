import DocTable.Distinct
import Mathlib.Data.List.Perm.Basic
import Mathlib.Data.List.Nodup

/-!
# The first items of their keys

Where some items share a key the first of them stands for all (`FirstOccurrences`). There is one
list of these items in their order (`FirstOccurrences.unique`), which `distinctBy` keeps.
-/

namespace DocTable
set_option autoImplicit false

variable {α β : Type} [DecidableEq β]

/-- Of some items those that are the first of their keys, in the order of the items. -/
structure FirstOccurrences (key : α → β) (xs ys : List α) : Prop where
  mem_iff : ∀ y, y ∈ ys ↔ xs.find? (fun x => key x = key y) = some y
  inOrder : ys.Pairwise fun y z => (xs.map key).idxOf (key y) < (xs.map key).idxOf (key z)

namespace FirstOccurrences

variable {key : α → β} {xs ys zs : List α} {x : α}

theorem nil : FirstOccurrences key [] [] :=
  ⟨fun _ => by simp, .nil⟩

/-- The first item of all is listed first, and no other of its key. -/
theorem cons (h : FirstOccurrences key xs ys) :
    FirstOccurrences key (x :: xs) (x :: ys.filter fun y => key y ≠ key x) := by
  have later {y : α} (apart : key y ≠ key x) :
      ((x :: xs).map key).idxOf (key y) = (xs.map key).idxOf (key y) + 1 := by
    rw [List.map_cons, List.idxOf_cons_ne _ (Ne.symm apart)]
  constructor
  · intro y
    rw [List.mem_cons, List.mem_filter, List.find?_cons]
    by_cases same : key x = key y
    · simp [same, eq_comm]
    · have apart : y ≠ x := fun e => same (e ▸ rfl)
      simp [same, apart, Ne.symm same, h.mem_iff]
  · refine List.pairwise_cons.mpr ⟨fun y mem => ?_, ?_⟩
    · have apart : key y ≠ key x := by simpa using (List.mem_filter.mp mem).2
      rw [later apart, List.map_cons, List.idxOf_cons_self]
      exact Nat.succ_pos _
    · refine (h.inOrder.filter _).imp_of_mem fun {y z} hy hz before => ?_
      have apart {w : α} (mem : w ∈ ys.filter fun y => key y ≠ key x) : key w ≠ key x := by
        simpa using (List.mem_filter.mp mem).2
      rw [later (apart hy), later (apart hz)]
      exact Nat.succ_lt_succ before

theorem of_distinctBy (key : α → β) (xs : List α) :
    FirstOccurrences key xs (distinctBy key xs) := by
  induction xs with
  | nil => exact nil
  | cons x xs ih => exact ih.cons

theorem nodup (h : FirstOccurrences key xs ys) : (ys.map key).Nodup :=
  List.pairwise_map.mpr (h.inOrder.imp fun before same => by simp [same] at before)

/-- There is one list of the first items. -/
theorem unique (hy : FirstOccurrences key xs ys) (hz : FirstOccurrences key xs zs) : ys = zs := by
  have same : ys.Perm zs :=
    (List.perm_ext_iff_of_nodup hy.nodup.of_map hz.nodup.of_map).mpr fun y => by
      rw [hy.mem_iff, hz.mem_iff]
  exact same.eq_of_pairwise (fun _ _ _ _ before after => absurd before (Nat.lt_asymm after))
    hy.inOrder hz.inOrder

end FirstOccurrences
end DocTable
