import DocTable.Distinct
import DocTable.Row
import Mathlib.Data.List.Forall2
import Mathlib.Data.List.Induction

/-!
# Rows in the order of ids

Of the rows with one id the last one is taken, for the first place of the id (`inOrderOf_eq`). So
rows are put into the order of some ids exactly when the ids are distinct and each of them has a
row (`inOrderOf_eq_ok_iff`). Where the rows stand, and what other rows there are, makes no
difference as long as every id has one row at most (`inOrderOf_of_perm`).
-/

namespace DocTable
set_option autoImplicit false

theorem distinctBy_sublist {α β : Type} [DecidableEq β] (key : α → β) (xs : List α) :
    (distinctBy key xs).Sublist xs := by
  induction xs with
  | nil => exact .slnil
  | cons x xs ih => exact (List.filter_sublist.trans ih).cons_cons x

/-- What every item is mapped to, when none is left out. -/
theorem forall₂_filterMap {α β : Type} {f : α → Option β} {xs : List α}
    (all : ∀ x ∈ xs, (f x).isSome = true) :
    List.Forall₂ (fun x y => f x = some y) xs (xs.filterMap f) := by
  induction xs with
  | nil => exact .nil
  | cons x xs ih =>
    obtain ⟨first, others⟩ := List.forall_mem_cons.mp all
    obtain ⟨y, found⟩ := Option.isSome_iff_exists.mp first
    rw [List.filterMap_cons_some found]
    exact .cons found (ih others)

theorem filterMap_of_forall₂ {α β : Type} {f : α → Option β} {xs : List α} {ys : List β}
    (each : List.Forall₂ (fun x y => f x = some y) xs ys) : xs.filterMap f = ys := by
  induction each with
  | nil => rfl
  | cons found _ ih => rw [List.filterMap_cons_some found, ih]

/-- Items are one when they have one key, among items with distinct keys. -/
theorem eq_of_nodup_filterMap {α β : Type} {f : α → Option β} {xs : List α}
    (distinct : (xs.filterMap f).Nodup) {x y : α} {b : β} (hx : x ∈ xs) (hy : y ∈ xs)
    (keyx : f x = some b) (keyy : f y = some b) : x = y := by
  induction xs with
  | nil => cases hx
  | cons z zs ih =>
    have others : (zs.filterMap f).Nodup :=
      distinct.sublist ((List.sublist_cons_self z zs).filterMap f)
    have fresh : f z = some b → ∀ w ∈ zs, f w ≠ some b := by
      intro key w mem other
      rw [List.filterMap_cons_some key, List.nodup_cons] at distinct
      exact distinct.1 (List.mem_filterMap.mpr ⟨w, mem, other⟩)
    rcases List.mem_cons.mp hx with rfl | laterx
    · rcases List.mem_cons.mp hy with rfl | latery
      · rfl
      · exact absurd keyy (fresh keyx y latery)
    · rcases List.mem_cons.mp hy with rfl | latery
      · exact absurd keyx (fresh keyy x laterx)
      · exact ih others laterx latery

namespace Row

/-! ## Rows by their ids -/

/-- The last of the rows with an id. -/
def lastWithId? (rows : List Row) (id : String) : Option Row :=
  rows.reverse.find? fun row => row.idText? == some id

/-- The last rows of some ids, each for the first place of its id. -/
def lastRows (rows : List Row) (ids : List String) : List Row :=
  (distinctBy id ids).filterMap (lastWithId? rows)

namespace Keyed

variable (t : Keyed)

theorem lookup_remove (id other : String) :
    (t.remove id).lookup other = if other = id then none else t.lookup other := by
  induction t with
  | nil => simp [remove]
  | cons entry t ih =>
    obtain ⟨key, row⟩ := entry
    rw [remove] at ih ⊢
    by_cases removed : key = id
    · rw [List.filter_cons_of_neg (by simpa using removed), ih]
      by_cases same : other = id
      · rw [if_pos same, if_pos same]
      · have apart : (other == key) = false := beq_false_of_ne (removed ▸ same)
        rw [if_neg same, if_neg same, List.lookup_cons, apart]
    · rw [List.filter_cons_of_pos (by simpa using removed), List.lookup_cons, List.lookup_cons, ih]
      cases found : other == key with
      | true => exact (if_neg (beq_iff_eq.mp found ▸ removed)).symm
      | false => rfl

theorem lookup_insert (row : Row) (id : String) :
    (t.insert row).lookup id = if row.idText? = some id then some row else t.lookup id := by
  unfold insert
  cases row.idText? with
  | none => simp
  | some key =>
    rw [List.lookup_cons, lookup_remove]
    cases found : id == key with
    | true =>
      rw [beq_iff_eq.mp found]
      exact (if_pos rfl).symm
    | false =>
      have apart := ne_of_beq_false found
      rw [if_neg apart, if_neg fun same => apart (Option.some.inj same).symm]

/-- Of the rows with an id the last one is kept. -/
theorem lookup_ofRows (rows : List Row) (id : String) :
    (ofRows rows).lookup id = lastWithId? rows id := by
  induction rows using List.reverseRecOn with
  | nil => rfl
  | append_singleton rows row ih =>
    have step : ofRows (rows ++ [row]) = (ofRows rows).insert row := by
      rw [ofRows, List.foldl_append]
      rfl
    rw [step, lookup_insert, ih]
    unfold lastWithId?
    rw [List.reverse_append, List.reverse_singleton, List.singleton_append, List.find?_cons]
    cases has : row.idText? == some id with
    | true => exact if_pos (beq_iff_eq.mp has)
    | false => exact if_neg (ne_of_beq_false has)

/-- A row is taken out once, so each id counts where it comes first. -/
theorem take_eq (ids : List String) :
    t.take ids = (distinctBy id ids).filterMap fun id => t.lookup id := by
  induction ids generalizing t with
  | nil => rfl
  | cons id ids ih =>
    rw [take, distinctBy, List.filterMap_cons, List.filterMap_filter]
    cases found : t.lookup id with
    | none =>
      refine (ih t).trans (List.filterMap_congr fun other _ => ?_)
      by_cases same : other = id <;> simp [same, found]
    | some row =>
      refine congrArg (row :: ·) ((ih (t.remove id)).trans (List.filterMap_congr fun other _ => ?_))
      rw [lookup_remove]
      by_cases same : other = id <;> simp [same]

end Keyed

/-- What is taken out of the rows by their ids are the last rows of these. -/
theorem inOrderOf_eq (rows : List Row) (ids : List String) :
    inOrderOf rows ids =
      if (lastRows rows ids).length = ids.length then .ok (lastRows rows ids)
      else .error (.execution (.reselected (lastRows rows ids).length ids.length)) := by
  have taken : (Keyed.ofRows rows).take ids = lastRows rows ids := by
    rw [Keyed.take_eq, lastRows, funext (Keyed.lookup_ofRows rows)]
  rw [inOrderOf, taken]

/-! ## The row of an id -/

variable {rows others : List Row} {ids : List String} {id : String} {row : Row}

/-- The rows with an id are one and the same. -/
structure IsOnly (rows : List Row) (id : String) (row : Row) : Prop where
  mem : row ∈ rows
  has : row.idText? = some id
  only : ∀ other ∈ rows, other.idText? = some id → other = row

theorem isOnly_of_nodup (distinct : (rows.filterMap idText?).Nodup) (mem : row ∈ rows)
    (has : row.idText? = some id) : IsOnly rows id row :=
  ⟨mem, has, fun _ other same => eq_of_nodup_filterMap distinct other mem same has⟩

theorem of_lastWithId? (found : lastWithId? rows id = some row) :
    row ∈ rows ∧ row.idText? = some id := by
  rw [lastWithId?] at found
  have mem := List.mem_of_find?_eq_some found
  have has := List.find?_some found
  exact ⟨List.mem_reverse.mp mem, by simpa using has⟩

theorem lastWithId?_eq_none : lastWithId? rows id = none ↔ ∀ row ∈ rows, row.idText? ≠ some id := by
  rw [lastWithId?, List.find?_eq_none]
  simp

theorem lastWithId?_of_isOnly (h : IsOnly rows id row) : lastWithId? rows id = some row := by
  cases found : lastWithId? rows id with
  | none => exact absurd h.has (lastWithId?_eq_none.mp found row h.mem)
  | some other =>
    obtain ⟨mem, has⟩ := of_lastWithId? found
    rw [h.only other mem has]

/-- The same rows with an id, in whatever place. -/
theorem lastWithId?_congr (distinct : (rows.filterMap idText?).Nodup)
    (same : ∀ row, row.idText? = some id → (row ∈ others ↔ row ∈ rows)) :
    lastWithId? others id = lastWithId? rows id := by
  cases found : lastWithId? rows id with
  | none =>
    rw [lastWithId?_eq_none] at found ⊢
    intro row mem has
    exact found row ((same row has).mp mem) has
  | some row =>
    obtain ⟨mem, has⟩ := of_lastWithId? found
    have only := isOnly_of_nodup distinct mem has
    refine lastWithId?_of_isOnly ⟨(same row has).mpr mem, has, ?_⟩
    intro other mem' has'
    exact only.only other ((same other has').mp mem') has'

/-! ## The rows of some ids -/

theorem inOrderOf_eq_ok_iff {out : List Row} :
    inOrderOf rows ids = .ok out ↔
      ids.Nodup ∧ List.Forall₂ (fun id row => lastWithId? rows id = some row) ids out := by
  rw [inOrderOf_eq, lastRows]
  constructor
  · intro ok
    split at ok
    · rename_i all
      obtain rfl := Except.ok.inj ok
      -- Both steps can only shorten the list of ids, and in the end it is not shorter.
      have shorter := (distinctBy_sublist id ids).length_le
      have fewer := List.length_filterMap_le (lastWithId? rows) (distinctBy id ids)
      have same : distinctBy id ids = ids :=
        (distinctBy_sublist id ids).eq_of_length (by omega)
      have distinct := nodup_map_distinctBy id ids
      rw [List.map_id, same] at distinct
      rw [same] at all ⊢
      exact ⟨distinct, forall₂_filterMap (List.filterMap_length_eq_length.mp all)⟩
    · cases ok
  · rintro ⟨distinct, each⟩
    have same : distinctBy id ids = ids := distinctBy_of_nodup (by rwa [List.map_id])
    rw [same, filterMap_of_forall₂ each, if_pos each.length_eq.symm]

/-- Rows can be put in order exactly when every id comes once and has a row. -/
theorem exists_inOrderOf_iff :
    (∃ out, inOrderOf rows ids = .ok out) ↔
      ids.Nodup ∧ ∀ id ∈ ids, ∃ row ∈ rows, row.idText? = some id := by
  constructor
  · rintro ⟨out, ok⟩
    obtain ⟨distinct, each⟩ := inOrderOf_eq_ok_iff.mp ok
    refine ⟨distinct, fun id mem => ?_⟩
    obtain ⟨k, bound, rfl⟩ := List.mem_iff_getElem.mp mem
    have found := each.get bound (each.length_eq ▸ bound)
    exact ⟨_, of_lastWithId? found⟩
  · rintro ⟨distinct, each⟩
    have all : ∀ id ∈ ids, (lastWithId? rows id).isSome = true := by
      intro id mem
      obtain ⟨row, here, has⟩ := each id mem
      cases found : lastWithId? rows id with
      | none => exact absurd has (lastWithId?_eq_none.mp found row here)
      | some _ => rfl
    exact ⟨_, inOrderOf_eq_ok_iff.mpr ⟨distinct, forall₂_filterMap all⟩⟩

/-- The rows come out one for each id, the only one there is. -/
theorem isOnly_of_inOrderOf (distinct : (rows.filterMap idText?).Nodup) {out : List Row}
    (ok : inOrderOf rows ids = .ok out) : List.Forall₂ (IsOnly rows) ids out := by
  obtain ⟨-, each⟩ := inOrderOf_eq_ok_iff.mp ok
  refine each.imp fun id row found => ?_
  obtain ⟨mem, has⟩ := of_lastWithId? found
  exact isOnly_of_nodup distinct mem has

/-- Other places and other rows make no difference. -/
theorem inOrderOf_of_perm (distinct : (rows.filterMap idText?).Nodup) {extra : List Row}
    (perm : others.Perm (rows ++ extra))
    (foreign : ∀ row ∈ extra, ∀ id ∈ ids, row.idText? ≠ some id) :
    inOrderOf others ids = inOrderOf rows ids := by
  have same : ∀ id ∈ ids, lastWithId? others id = lastWithId? rows id := by
    intro id mem
    refine lastWithId?_congr distinct fun row has => ?_
    rw [perm.mem_iff, List.mem_append]
    constructor
    · rintro (here | there)
      · exact here
      · exact absurd has (foreign row there id mem)
    · exact .inl
  have found : lastRows others ids = lastRows rows ids :=
    List.filterMap_congr fun id mem => same id (mem_of_mem_distinctBy mem)
  rw [inOrderOf_eq, inOrderOf_eq, found]

end Row
end DocTable
