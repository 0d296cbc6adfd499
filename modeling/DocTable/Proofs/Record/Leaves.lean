import DocTable.Proofs.Path.Flattened
import DocTable.Record
import Mathlib.Data.List.Nodup

/-!
# The leaves of a record

A record read as a whole is the list of its leaves, each at the end of a chain of names
(`Record.leaves`). Flattening gives the leaves under the column keys of their chains
(`flatten_eq_ofList`), and a walk along a chain ends at its leaf (`mem_leaves`).
-/

namespace DocTable
set_option autoImplicit false

namespace Json

/-! ## Members without repeated keys -/

namespace Members

theorem set_of_not_mem {key : String} {ms : Members} (fresh : key ∉ keys ms) (v : Json) :
    set key v ms = ms ++ [(key, v)] := by
  induction ms with
  | nil => rfl
  | cons m ms ih =>
    obtain ⟨k, w⟩ := m
    rw [keys, List.map_cons, List.mem_cons, not_or] at fresh
    rw [set, if_neg (Ne.symm fresh.1), ih fresh.2, List.cons_append]

/-- Without repeated keys, members are kept as they are given. -/
theorem ofList_of_nodup {ms : Members} (distinct : (keys ms).Nodup) : ofList ms = ms := by
  have kept : ∀ (acc more : Members), (keys (acc ++ more)).Nodup →
      more.foldl (fun acc m => set m.1 m.2 acc) acc = acc ++ more := by
    intro acc more distinct
    induction more generalizing acc with
    | nil => rw [List.foldl_nil, List.append_nil]
    | cons m more ih =>
      have fresh : m.1 ∉ keys acc := by
        rw [keys, List.map_append, List.map_cons, List.nodup_append] at distinct
        exact fun old => distinct.2.2 _ old _ List.mem_cons_self rfl
      have shifted : acc ++ m :: more = acc ++ [m] ++ more := List.append_cons acc m more
      rw [List.foldl_cons, set_of_not_mem fresh, ih _ (shifted ▸ distinct), ← shifted]
  exact kept [] ms distinct

/-- However members are given, no key is kept twice. -/
theorem nodup_keys_ofList (ms : List (String × Json)) : (keys (ofList ms)).Nodup := by
  have kept : ∀ acc : Members, (keys acc).Nodup →
      (keys (ms.foldl (fun acc m => set m.1 m.2 acc) acc)).Nodup := by
    induction ms with
    | nil => exact fun _ distinct => distinct
    | cons m ms ih =>
      intro acc distinct
      refine ih (set m.1 m.2 acc) ?_
      rw [keys_set]
      split
      · exact distinct
      · rename_i fresh
        exact distinct.append (List.nodup_singleton _) (by simpa using fresh)
  exact kept [] List.nodup_nil

theorem mem_of_mem_set {key : String} {v : Json} {ms : Members} {m : String × Json}
    (mem : m ∈ set key v ms) : m = (key, v) ∨ m ∈ ms := by
  induction ms with
  | nil => exact .inl (List.mem_singleton.mp mem)
  | cons first ms ih =>
    obtain ⟨k, w⟩ := first
    rw [set] at mem
    split at mem
    · rename_i same
      rw [same] at mem
      exact (List.mem_cons.mp mem).imp_right (List.mem_cons_of_mem _)
    · rcases List.mem_cons.mp mem with rfl | mem
      · exact .inr List.mem_cons_self
      · exact (ih mem).imp_right (List.mem_cons_of_mem _)

/-- Nothing is kept that was not given. -/
theorem mem_of_mem_ofList {ms : List (String × Json)} {m : String × Json} (mem : m ∈ ofList ms) :
    m ∈ ms := by
  have given : ∀ acc : Members, m ∈ ms.foldl (fun acc m => set m.1 m.2 acc) acc →
      m ∈ acc ∨ m ∈ ms := by
    clear mem
    induction ms with
    | nil => exact fun _ mem => .inl mem
    | cons first ms ih =>
      intro acc mem
      rcases ih _ mem with mem | mem
      · rcases mem_of_mem_set mem with rfl | mem
        · exact .inr List.mem_cons_self
        · exact .inl mem
      · exact .inr (List.mem_cons_of_mem _ mem)
  exact (given [] mem).resolve_left List.not_mem_nil

theorem get?_eq_some_of_mem {key : String} {v : Json} {ms : Members}
    (distinct : (keys ms).Nodup) (mem : (key, v) ∈ ms) : get? key ms = some v := by
  induction ms with
  | nil => cases mem
  | cons m ms ih =>
    obtain ⟨k, w⟩ := m
    rw [keys, List.map_cons, List.nodup_cons] at distinct
    rcases List.mem_cons.mp mem with same | mem
    · cases same
      exact if_pos rfl
    · have other : k ≠ key := by
        rintro rfl
        exact distinct.1 (List.mem_map.mpr ⟨_, mem, rfl⟩)
      rw [get?, if_neg other]
      exact ih distinct.2 mem

theorem mem_of_get? {key : String} {v : Json} {ms : Members} (found : get? key ms = some v) :
    (key, v) ∈ ms := by
  induction ms with
  | nil => cases found
  | cons m ms ih =>
    obtain ⟨k, w⟩ := m
    rw [get?] at found
    split at found
    · rename_i same
      obtain rfl := Option.some.inj found
      rw [same]
      exact List.mem_cons_self
    · exact List.mem_cons_of_mem _ (ih found)

end Members

mutual
/-- No object within nested objects repeats a key. -/
def isKeyed : Json → Bool
  | .obj members => isKeyedMembers members
  | _ => true

def isKeyedMembers : List (String × Json) → Bool
  | [] => true
  | (key, value) :: more =>
    !(more.map Prod.fst).contains key && isKeyed value && isKeyedMembers more
end

/-- What is not taken apart further: everything but an object with members. -/
def isLeaf : Json → Bool
  | .obj (_ :: _) => false
  | _ => true

theorem isLeaf_eq_false_iff {v : Json} : v.isLeaf = false ↔ ∃ m ms, v = .obj (m :: ms) := by
  unfold isLeaf
  split
  · exact ⟨fun _ => ⟨_, _, rfl⟩, fun _ => rfl⟩
  · rename_i other
    exact ⟨nofun, fun ⟨m, ms, same⟩ => absurd same (other m ms)⟩

end Json

/-! ## Leaves and their chains of names -/

namespace Record

mutual
/-- The leaves below members, each with the chain of names that leads to it. -/
def leavesOf : List (String × Json) → List (List String × Json)
  | [] => []
  | (name, value) :: more =>
    (leavesAt value).map (fun leaf => (name :: leaf.1, leaf.2)) ++ leavesOf more

/-- The leaves of a value. -/
def leavesAt : Json → List (List String × Json)
  | .obj (m :: ms) => leavesOf (m :: ms)
  | v => [([], v)]
end

def leaves (r : Record) : List (List String × Json) := leavesOf r.members

/-- The leaves under the column keys of their chains. -/
def keyedLeaves (r : Record) : Json.Members :=
  r.leaves.map fun leaf => (Path.columnKey leaf.1, leaf.2)

theorem leavesAt_of_isLeaf {v : Json} (h : v.isLeaf = true) : leavesAt v = [([], v)] := by
  unfold leavesAt
  split
  · cases h
  · rfl

mutual
/-- By recursion on the members, down to where they are not taken apart further. -/
theorem isLeaf_of_mem_leavesOf : ∀ (members : List (String × Json)) {leaf : List String × Json},
    leaf ∈ leavesOf members → leaf.2.isLeaf = true
  | [], _, mem => by cases mem
  | (name, value) :: more, leaf, mem => by
    rw [leavesOf, List.mem_append] at mem
    rcases mem with mem | mem
    · obtain ⟨below, inside, rfl⟩ := List.mem_map.mp mem
      have plain : below.2.isLeaf = true := isLeaf_of_mem_leavesAt value inside
      exact plain
    · exact isLeaf_of_mem_leavesOf more mem

theorem isLeaf_of_mem_leavesAt : ∀ (value : Json) {leaf : List String × Json},
    leaf ∈ leavesAt value → leaf.2.isLeaf = true
  | .obj (m :: ms), _, mem => isLeaf_of_mem_leavesOf (m :: ms) mem
  | .obj [], _, mem | .null, _, mem | .bool _, _, mem | .num _, _, mem | .str _, _, mem
  | .arr _, _, mem => by
    rw [leavesAt_of_isLeaf rfl, List.mem_singleton] at mem
    rw [mem]
    rfl
end

/-- A name may be joined to its parent's key before the rest of the chain follows. -/
theorem intercalate_flatKey (parent : Option String) (name : String) (names : List String) :
    Path.separator.intercalate (flatKey parent name :: names) =
      Path.separator.intercalate (parent.toList ++ Path.flatten name :: names) := by
  cases parent with
  | none => rfl
  | some p =>
    rw [flatKey, Option.toList_some, List.singleton_append, String.intercalate_cons_cons]
    cases names with
    | nil => rw [String.intercalate_singleton, String.intercalate_singleton]
    | cons next names =>
      rw [String.intercalate_cons_cons, String.intercalate_cons_cons]
      simp only [String.append_assoc]

mutual
/-- By recursion on the members, as they are flattened: their leaves are set one by one. -/
theorem flattenMembers_eq : ∀ (members : List (String × Json)) (parent : Option String)
    (acc : Json.Members),
    flattenMembers parent members acc = (leavesOf members).foldl (fun acc leaf =>
      Json.Members.set
        (Path.separator.intercalate (parent.toList ++ leaf.1.map Path.flatten)) leaf.2 acc) acc
  | [], _, _ => rfl
  | (name, value) :: more, parent, acc => by
    rw [flattenMembers, flattenMembers_eq more, flattenValue_eq value, leavesOf, List.foldl_append,
      List.foldl_map]
    simp only [intercalate_flatKey, List.map_cons]

theorem flattenValue_eq : ∀ (value : Json) (key : String) (acc : Json.Members),
    flattenValue key value acc = (leavesAt value).foldl (fun acc leaf =>
      Json.Members.set
        (Path.separator.intercalate (key :: leaf.1.map Path.flatten)) leaf.2 acc) acc
  | .obj (m :: ms), key, acc => by
    rw [flattenValue, flattenMembers_eq (m :: ms), leavesAt]
    rfl
  | .obj [], _, _ | .null, _, _ | .bool _, _, _ | .num _, _, _ | .str _, _, _
  | .arr _, _, _ => by
    rw [flattenValue, leavesAt_of_isLeaf rfl, List.foldl_cons, List.foldl_nil, List.map_nil,
      String.intercalate_singleton]
    exact nofun
end

theorem flatten_eq_ofList (r : Record) : r.flatten = Json.Members.ofList r.keyedLeaves := by
  rw [flatten, flattenMembers_eq, Json.Members.ofList, keyedLeaves, List.foldl_map, leaves]
  rfl

theorem nodup_keys_flatten (r : Record) : r.flatten.keys.Nodup := by
  rw [flatten_eq_ofList]
  exact Json.Members.nodup_keys_ofList r.keyedLeaves

theorem mem_map_cons {leaves : List (List String × Json)} {key name : String}
    {names : List String} {v : Json} :
    (name :: names, v) ∈ leaves.map (fun leaf => (key :: leaf.1, leaf.2)) ↔
      key = name ∧ (names, v) ∈ leaves := by
  rw [List.mem_map]
  constructor
  · rintro ⟨leaf, mem, same⟩
    cases same
    exact ⟨rfl, mem⟩
  · rintro ⟨rfl, mem⟩
    exact ⟨_, mem, rfl⟩

theorem nil_not_mem_leavesOf {members : List (String × Json)} {v : Json} :
    ([], v) ∉ leavesOf members := by
  induction members with
  | nil => exact List.not_mem_nil
  | cons m more ih =>
    obtain ⟨name, value⟩ := m
    rw [leavesOf, List.mem_append, not_or]
    refine ⟨fun mem => ?_, ih⟩
    obtain ⟨leaf, -, same⟩ := List.mem_map.mp mem
    cases same

/-- A walk into members goes on with the value of the first name. -/
theorem walk?_cons {key name : String} {value : Json} {more : Json.Members}
    {names : List String} (fresh : key ∉ more.keys) {v : Json} :
    Json.walk? (name :: names) (.obj ((key, value) :: more)) = some v ↔
      (key = name ∧ Json.walk? names value = some v) ∨
        Json.walk? (name :: names) (.obj more) = some v := by
  rw [Json.walk?, Json.walk?, Json.Members.get?]
  by_cases same : key = name
  · subst same
    have none : Json.Members.get? key more = none := by
      cases found : Json.Members.get? key more with
      | none => rfl
      | some w => exact absurd (List.mem_map.mpr ⟨_, Json.Members.mem_of_get? found, rfl⟩) fresh
    simp [none]
  · simp [same]

/-- No walk goes on from a leaf. -/
theorem mem_leavesAt_of_isLeaf {value : Json} (leaf : value.isLeaf = true) (names : List String)
    (v : Json) :
    (names, v) ∈ leavesAt value ↔ Json.walk? names value = some v ∧ v.isLeaf = true := by
  rw [leavesAt_of_isLeaf leaf, List.mem_singleton, Prod.mk.injEq]
  cases names with
  | nil =>
    rw [Json.walk?, Option.some.injEq]
    constructor
    · rintro ⟨-, rfl⟩
      exact ⟨rfl, leaf⟩
    · rintro ⟨rfl, -⟩
      exact ⟨rfl, rfl⟩
  | cons name names =>
    have none : Json.walk? (name :: names) value = none := by
      cases value with
      | obj members =>
        cases members with
        | nil => rfl
        | cons m ms => cases leaf
      | null | bool _ | num _ | str _ | arr _ => rfl
    simp [none]

mutual
/-- By recursion on the members: a walk takes the way of the leaf's chain of names. -/
theorem mem_leavesOf : ∀ (members : List (String × Json)),
    Json.isKeyedMembers members = true → ∀ (name : String) (names : List String) (v : Json),
    (name :: names, v) ∈ leavesOf members ↔
      Json.walk? (name :: names) (.obj members) = some v ∧ v.isLeaf = true
  | [], _, _, _, _ => by simp [leavesOf, Json.walk?, Json.Members.get?]
  | (key, value) :: more, keyed, name, names, v => by
    rw [Json.isKeyedMembers, Bool.and_eq_true, Bool.and_eq_true, Bool.not_eq_true'] at keyed
    obtain ⟨⟨fresh, first⟩, others⟩ := keyed
    have fresh : key ∉ Json.Members.keys more := by simpa [Json.Members.keys] using fresh
    rw [leavesOf, List.mem_append, mem_map_cons, mem_leavesAt value first names v,
      mem_leavesOf more others name names v, walk?_cons fresh, ← and_assoc, ← or_and_right]

theorem mem_leavesAt : ∀ (value : Json), value.isKeyed = true →
    ∀ (names : List String) (v : Json),
    (names, v) ∈ leavesAt value ↔ Json.walk? names value = some v ∧ v.isLeaf = true
  | .obj (m :: ms), _, [], v => by
    refine ⟨fun mem => absurd mem nil_not_mem_leavesOf, ?_⟩
    rintro ⟨whole, leaf⟩
    obtain rfl := Option.some.inj whole
    cases leaf
  | .obj (m :: ms), keyed, name :: names, v => mem_leavesOf (m :: ms) keyed name names v
  | .obj [], _, names, v => mem_leavesAt_of_isLeaf rfl names v
  | .null, _, names, v | .bool _, _, names, v | .num _, _, names, v | .str _, _, names, v
  | .arr _, _, names, v => mem_leavesAt_of_isLeaf rfl names v
end

variable {r : Record}

/-- The leaves are where walks along chains of names end. -/
theorem mem_leaves (keyed : Json.isKeyedMembers r.members = true) {names : List String}
    (some : names ≠ []) {v : Json} :
    (names, v) ∈ r.leaves ↔
      Json.walk? names (.obj r.members) = Option.some v ∧ v.isLeaf = true := by
  obtain ⟨name, names, rfl⟩ := List.exists_cons_of_ne_nil some
  exact mem_leavesOf r.members keyed name names v

theorem isLeaf_of_mem_leaves {leaf : List String × Json} (mem : leaf ∈ r.leaves) :
    leaf.2.isLeaf = true :=
  isLeaf_of_mem_leavesOf r.members mem

/-! ## Flattening without repeated column keys -/

/-- Without repeated column keys, flattening keeps every leaf. -/
theorem flatten_eq (distinct : (r.keyedLeaves.keys).Nodup) : r.flatten = r.keyedLeaves := by
  rw [flatten_eq_ofList, Json.Members.ofList_of_nodup distinct]

theorem mem_keyedLeaves {key : String} {v : Json} :
    (key, v) ∈ r.keyedLeaves ↔ ∃ names, (names, v) ∈ r.leaves ∧ Path.columnKey names = key := by
  rw [keyedLeaves, List.mem_map]
  constructor
  · rintro ⟨⟨names, w⟩, mem, same⟩
    cases same
    exact ⟨names, mem, rfl⟩
  · rintro ⟨names, mem, rfl⟩
    exact ⟨_, mem, rfl⟩

theorem get?_flatten (distinct : (r.keyedLeaves.keys).Nodup) {key : String} {v : Json} :
    r.flatten.get? key = some v ↔
      ∃ names, (names, v) ∈ r.leaves ∧ Path.columnKey names = key := by
  rw [flatten_eq distinct, ← mem_keyedLeaves]
  exact ⟨Json.Members.mem_of_get?, Json.Members.get?_eq_some_of_mem distinct⟩

/-- Leaves with one column key are one leaf. -/
theorem eq_of_columnKey (distinct : (r.keyedLeaves.keys).Nodup) {first second : List String × Json}
    (mem : first ∈ r.leaves) (mem' : second ∈ r.leaves)
    (same : Path.columnKey first.1 = Path.columnKey second.1) : first = second := by
  rw [keyedLeaves, Json.Members.keys, List.map_map] at distinct
  exact List.inj_on_of_nodup_map distinct mem mem' same

end Record
end DocTable
