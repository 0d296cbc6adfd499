import DocTable.Proofs.Condition.Cases
import DocTable.Proofs.Statement.Names
import DocTable.Proofs.Statement.Outcome

/-!
# The columns of a condition

The names in a condition's text are its columns (`names_fragment`). Those that a filter is
composed to are about columns of the registry only, however deep a name stands in the filter
(`columns_ofMembers`).
-/

namespace DocTable.Condition
set_option autoImplicit false

mutual
/-- The columns that a condition is about, from left to right. -/
def columns : Condition → List String
  | .isNull column | .isNotNull column | .compare column _ _ | .isIn column _ _ | .like column _ =>
    [column]
  | .never => []
  | .all parts | .any parts | .not parts => columnsEach parts

def columnsEach : List Condition → List String
  | [] => []
  | c :: cs => columns c ++ columnsEach cs
end

mutual
theorem names_fragment (d : Dialect) :
    ∀ c : Condition, (fragment c).names d = c.columns.map d.quoteName
  | .isNull _ | .isNotNull _ | .compare _ _ _ | .like _ _ | .never => rfl
  | .isIn column negated vs => by
    rw [fragment, Fragment.names_append, Fragment.names_parenthesized]
    exact congrArg (List.cons _) (Fragment.names_values d vs)
  | .all parts | .any parts => by
    rw [fragment, Fragment.names_parenthesized, Fragment.names_separatedBy]
    exact names_fragments d parts
  | .not parts => by
    rw [fragment, Fragment.names_word, Fragment.names_parenthesized, Fragment.names_separatedBy]
    exact names_fragments d parts

theorem names_fragments (d : Dialect) :
    ∀ cs : List Condition,
      (fragments cs).flatMap (Fragment.names d) = (columnsEach cs).map d.quoteName
  | [] => rfl
  | c :: cs => by
    rw [fragments, List.flatMap_cons, columnsEach, List.map_append, names_fragment d c,
      names_fragments d cs]
end

theorem columnsEach_append (cs ds : List Condition) :
    columnsEach (cs ++ ds) = columnsEach cs ++ columnsEach ds := by
  induction cs with
  | nil => rfl
  | cons c cs ih => simp [columnsEach, ih]

/-- A group is about the columns of its parts. -/
theorem columnsEach_group {join : List Condition → Condition}
    (joined : ∀ cs, (join cs).columns = columnsEach cs) (cs : List Condition) :
    columnsEach (group join cs) = columnsEach cs := by
  unfold group
  split
  · rfl
  · rfl
  · simp [columnsEach, joined]

variable {r : Registry} {policy : FieldPolicy} {f : Field}

/-! ## One field -/

theorem columns_ofList {negated : Bool} {items : List Json} {c : Condition}
    (ok : (ofList f negated items).outcome = .ok c) : c.columns ⊆ [f.key] := by
  cases items with
  | nil =>
    obtain rfl := Draft.ok_pure.mp ok
    exact List.nil_subset _
  | cons item items =>
    obtain ⟨values, -, rfl⟩ := Draft.ok_return.mp ok
    exact List.Subset.refl _

theorem columns_ofComparison {op : String} {comparison : Comparison} {v : Json} {c : Condition}
    (ok : (ofComparison f op comparison v).outcome = .ok c) : c.columns ⊆ [f.key] := by
  cases v with
  | null =>
    cases comparison with
    | equal | notEqual =>
      obtain rfl := Draft.ok_pure.mp ok
      exact List.Subset.refl _
    | _ => cases ok
  | arr _ | obj _ => cases ok
  | _ =>
    obtain ⟨value, -, rfl⟩ := Draft.ok_return.mp ok
    exact List.Subset.refl _

theorem columns_ofLike {v : Json} {c : Condition} (ok : (ofLike f v).outcome = .ok c) :
    c.columns ⊆ [f.key] := by
  cases v with
  | str pattern =>
    rw [ofLike] at ok
    split at ok
    · obtain ⟨value, -, rfl⟩ := Draft.ok_return.mp ok
      exact List.Subset.refl _
    · cases ok
  | _ => cases ok

theorem columns_ofOperator {op : String} {operand : Json} {cs : List Condition}
    (ok : (ofOperator f op operand).outcome = .ok cs) : columnsEach cs ⊆ [f.key] := by
  have single {c : Condition} (h : c.columns ⊆ [f.key]) : columnsEach [c] ⊆ [f.key] := by
    simpa [columnsEach] using h
  have kind := operatorCase f op operand
  generalize ofOperator f op operand = d at ok kind
  cases kind with
  | refused none => exact absurd ok (none cs)
  | compare known =>
    obtain ⟨c, composed, rfl⟩ := Draft.ok_return.mp ok
    exact single (columns_ofComparison composed)
  | inside =>
    obtain ⟨c, composed, rfl⟩ := Draft.ok_return.mp ok
    exact single (columns_ofList composed)
  | anything =>
    obtain rfl := Draft.ok_pure.mp ok
    exact List.nil_subset _
  | outside some =>
    obtain ⟨c, composed, rfl⟩ := Draft.ok_return.mp ok
    exact single (columns_ofList composed)
  | like =>
    obtain ⟨c, composed, rfl⟩ := Draft.ok_return.mp ok
    exact single (columns_ofLike composed)
  | present | absent =>
    obtain rfl := Draft.ok_pure.mp ok
    exact single (List.Subset.refl _)

theorem columns_ofOperators {operators : List (String × Json)} {cs : List Condition}
    (ok : (ofOperators f operators).outcome = .ok cs) : columnsEach cs ⊆ [f.key] := by
  induction operators generalizing cs with
  | nil =>
    obtain rfl := Draft.ok_pure.mp ok
    exact List.nil_subset _
  | cons m operators ih =>
    obtain ⟨here, first, ok⟩ := Draft.ok_bind.mp ok
    obtain ⟨rest, others, rfl⟩ := Draft.ok_return.mp ok
    rw [columnsEach_append]
    exact List.append_subset.mpr ⟨columns_ofOperator first, ih others⟩

theorem columns_ofField {v : Json} {cs : List Condition} (ok : (ofField f v).outcome = .ok cs) :
    columnsEach cs ⊆ [f.key] := by
  cases v with
  | null =>
    obtain rfl := Draft.ok_pure.mp ok
    exact List.Subset.refl _
  | arr items =>
    obtain ⟨c, composed, rfl⟩ := Draft.ok_return.mp ok
    simpa [columnsEach] using columns_ofList composed
  | obj members =>
    cases members with
    | nil =>
      obtain rfl := Draft.ok_pure.mp ok
      exact List.nil_subset _
    | cons m ms =>
      rw [ofField] at ok
      · split at ok
        · exact columns_ofOperators ok
        · cases ok
      · exact List.cons_ne_nil m ms
  | _ =>
    obtain ⟨value, -, rfl⟩ := Draft.ok_return.mp ok
    exact List.Subset.refl _

/-! ## Whole filters -/

/-- The columns of a member, given those of what is below it. -/
theorem columns_below {parent : Option String} {key : String} {v : Json} {cs : List Condition}
    (members : ∀ {ms parent cs}, v = .obj ms → (ofMembers r policy parent ms).outcome = .ok cs →
      columnsEach cs ⊆ r.keys)
    (filters : ∀ {items op cs}, v = .arr items → (ofFilters r policy op items).outcome = .ok cs →
      columnsEach cs ⊆ r.keys)
    (ok : (ofMember r policy parent key v).outcome = .ok cs) : columnsEach cs ⊆ r.keys := by
  have kind := memberCase r policy parent key v
  generalize ofMember r policy parent key v = d at ok kind
  cases kind with
  | refused none => exact absurd ok (none cs)
  | and | or =>
    obtain ⟨parts, composed, rfl⟩ := Draft.ok_return.mp ok
    rw [columnsEach_group fun _ => rfl]
    exact filters rfl composed
  | negation =>
    obtain ⟨parts, composed, rfl⟩ := Draft.ok_return.mp ok
    split
    · exact List.nil_subset _
    · simpa [columnsEach, columns] using members rfl composed
  | @column _ _ f _ found =>
    have known : f.key ∈ r.keys := List.mem_map_of_mem (Registry.mem_fields_of_resolve? found)
    exact List.Subset.trans (columns_ofField ok) (by simpa using known)
  | names => exact members rfl ok
  | unknown =>
    cases policy with
    | ignore =>
      cases ok
      exact List.nil_subset _
    | reject => cases ok

mutual
/-- The members of an object: by recursion on them, as their conditions are composed. -/
theorem columns_ofMembers {parent : Option String} :
    ∀ {members : List (String × Json)} {cs : List Condition},
      (ofMembers r policy parent members).outcome = .ok cs → columnsEach cs ⊆ r.keys
  | [], _, ok => by
    obtain rfl := Draft.ok_pure.mp ok
    exact List.nil_subset _
  | (key, value) :: more, _, ok => by
    obtain ⟨here, first, ok⟩ := Draft.ok_bind.mp ok
    obtain ⟨rest, others, rfl⟩ := Draft.ok_return.mp ok
    rw [columnsEach_append]
    exact List.append_subset.mpr ⟨columns_ofMember first, columns_ofMembers others⟩

theorem columns_ofMember {parent : Option String} {key : String} :
    ∀ {value : Json} {cs : List Condition},
      (ofMember r policy parent key value).outcome = .ok cs → columnsEach cs ⊆ r.keys
  | .obj _, _, ok =>
    columns_below (fun same => by cases same; exact columns_ofMembers)
      (fun list => by cases list) ok
  | .arr _, _, ok =>
    columns_below (fun object => by cases object)
      (fun same => by cases same; exact columns_ofFilters) ok
  | .null, _, ok | .bool _, _, ok | .num _, _, ok | .str _, _, ok =>
    columns_below (fun object => by cases object) (fun list => by cases list) ok

theorem columns_ofFilters {op : String} :
    ∀ {items : List Json} {cs : List Condition},
      (ofFilters r policy op items).outcome = .ok cs → columnsEach cs ⊆ r.keys
  | [], _, ok => by
    obtain rfl := Draft.ok_pure.mp ok
    exact List.nil_subset _
  | .obj members :: more, _, ok => by
    obtain ⟨parts, first, ok⟩ := Draft.ok_bind.mp ok
    obtain ⟨rest, others, rfl⟩ := Draft.ok_return.mp ok
    rw [columnsEach_append, columnsEach_group fun _ => rfl]
    exact List.append_subset.mpr ⟨columns_ofMembers first, columns_ofFilters others⟩
  | .null :: _, _, ok | .bool _ :: _, _, ok | .num _ :: _, _, ok | .str _ :: _, _, ok
  | .arr _ :: _, _, ok => by cases ok
end

end DocTable.Condition
