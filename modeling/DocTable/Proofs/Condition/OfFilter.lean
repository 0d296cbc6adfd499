import DocTable.Proofs.Condition.Compiled
import DocTable.Proofs.Condition.Cases

/-!
# The conditions of an accepted filter

First what one field gets, then the members of a filter, in the recursion that
composes its conditions (`compiled_ofMembers`).
-/

namespace DocTable.Condition
set_option autoImplicit false

variable {r : Registry} {policy : FieldPolicy} {f : Field}

/-! ## One field -/

theorem ok_listValues {items : List Json} {values : List SqlValue}
    (ok : (listValues f items).outcome = .ok values) :
    values = (items.map (Given.mk f)).map Given.typed ∧ ∀ g ∈ items.map (Given.mk f), g.Fits := by
  induction items generalizing values with
  | nil =>
    obtain rfl := Draft.ok_pure.mp ok
    exact ⟨rfl, by simp⟩
  | cons item items ih =>
    cases item with
    | arr _ | obj _ => cases ok
    | _ =>
      obtain ⟨value, first, ok⟩ := Draft.ok_bind.mp ok
      obtain ⟨rest, others, rfl⟩ := Draft.ok_return.mp ok
      obtain ⟨rfl, fit⟩ := ih others
      obtain ⟨fits, typed⟩ := Given.fits_of_coerce (Draft.ok_takeFor.mp first)
      refine ⟨by simp [typed], ?_⟩
      intro g hg
      rcases List.mem_cons.mp hg with rfl | hg
      · exact fits
      · exact fit g hg

/-- A list that is not empty, or is asked to hold the column. -/
theorem compiled_ofList {negated : Bool} {items : List Json} {c : Condition}
    (some : negated = true → items ≠ []) (ok : (ofList f negated items).outcome = .ok c) :
    Compiled [.isIn f.key negated (items.map (Given.mk f))] [c] := by
  have writable : (Predicate.isIn f.key negated (items.map (Given.mk f))).Writable :=
    fun h => by simpa using some h
  cases items with
  | nil =>
    obtain rfl := Draft.ok_pure.mp ok
    exact .test rfl rfl writable
  | cons item items =>
    obtain ⟨values, taken, rfl⟩ := Draft.ok_return.mp ok
    obtain ⟨rfl, fit⟩ := ok_listValues taken
    refine ⟨rfl, ?_, writable, trivial⟩
    intro s hs
    simp only [Predicate.sitesAll, Predicate.sites, List.append_nil] at hs
    obtain ⟨g, hg, rfl⟩ := List.mem_map.mp hs
    obtain ⟨v, _, rfl⟩ := List.mem_map.mp hg
    exact ⟨rfl, fit _ hg⟩

theorem compiled_ofComparison {op : String} {comparison : Comparison} {v : Json} {c : Condition}
    (ok : (ofComparison f op comparison v).outcome = .ok c) :
    Compiled (Predicate.ofComparison f comparison v) [c] := by
  cases v with
  | null =>
    cases comparison with
    | equal | notEqual =>
      obtain rfl := Draft.ok_pure.mp ok
      exact .test rfl rfl trivial
    | _ => cases ok
  | arr _ | obj _ => cases ok
  | _ =>
    obtain ⟨value, taken, rfl⟩ := Draft.ok_return.mp ok
    have compared := Compiled.compare comparison (Draft.ok_takeFor.mp taken)
    cases comparison <;> exact compared

theorem compiled_ofLike {v : Json} {c : Condition} (ok : (ofLike f v).outcome = .ok c) :
    ∃ pattern, v = .str pattern ∧ Compiled [.like f.key ⟨f, v⟩ likeEscape] [c] := by
  cases v with
  | str pattern =>
    rw [ofLike] at ok
    split at ok
    · rename_i textual
      obtain ⟨value, taken, rfl⟩ := Draft.ok_return.mp ok
      obtain rfl := Draft.ok_take.mp taken
      exact ⟨pattern, rfl, .like textual⟩
    · cases ok
  | _ => cases ok

theorem comparison?_eq_lookup (op : String) :
    comparison? op = Predicate.comparisons.lookup op := by
  unfold comparison?
  split
  case h_7 =>
    refine (List.lookup_eq_none_iff.mpr ?_).symm
    simp_all [Predicate.comparisons]
  all_goals rfl

theorem compiled_ofOperator {op : String} {operand : Json} {cs : List Condition}
    (ok : (ofOperator f op operand).outcome = .ok cs) :
    Compiled (Predicate.ofOperator f op operand) cs := by
  have kind := operatorCase f op operand
  generalize ofOperator f op operand = d at ok kind
  cases kind with
  | refused none => exact absurd ok (none cs)
  | compare known =>
    obtain ⟨c, composed, rfl⟩ := Draft.ok_return.mp ok
    rw [comparison?_eq_lookup] at known
    unfold Predicate.ofOperator
    rw [known]
    exact compiled_ofComparison composed
  | inside =>
    obtain ⟨c, composed, rfl⟩ := Draft.ok_return.mp ok
    exact compiled_ofList nofun composed
  | anything =>
    obtain rfl := Draft.ok_pure.mp ok
    exact .nil
  | @outside items some =>
    obtain ⟨c, composed, rfl⟩ := Draft.ok_return.mp ok
    cases items with
    | nil => exact absurd rfl some
    | cons item items => exact compiled_ofList (fun _ => some) composed
  | like =>
    obtain ⟨c, composed, rfl⟩ := Draft.ok_return.mp ok
    obtain ⟨pattern, rfl, compiled⟩ := compiled_ofLike composed
    exact compiled
  | present | absent =>
    obtain rfl := Draft.ok_pure.mp ok
    exact .test rfl rfl trivial

theorem compiled_ofOperators {operators : List (String × Json)} {cs : List Condition}
    (ok : (ofOperators f operators).outcome = .ok cs) :
    Compiled (operators.flatMap fun m => Predicate.ofOperator f m.1 m.2) cs := by
  induction operators generalizing cs with
  | nil =>
    obtain rfl := Draft.ok_pure.mp ok
    exact .nil
  | cons m operators ih =>
    obtain ⟨here, first, ok⟩ := Draft.ok_bind.mp ok
    obtain ⟨rest, others, rfl⟩ := Draft.ok_return.mp ok
    exact (compiled_ofOperator first).append (ih others)

theorem compiled_ofField {v : Json} {cs : List Condition} (ok : (ofField f v).outcome = .ok cs) :
    Compiled (Predicate.ofValue f v) cs := by
  cases v with
  | null =>
    obtain rfl := Draft.ok_pure.mp ok
    exact .test rfl rfl trivial
  | arr items =>
    obtain ⟨c, composed, rfl⟩ := Draft.ok_return.mp ok
    exact compiled_ofList nofun composed
  | obj members =>
    cases members with
    | nil =>
      obtain rfl := Draft.ok_pure.mp ok
      exact .nil
    | cons m ms =>
      rw [ofField] at ok
      · split at ok
        · exact compiled_ofOperators ok
        · cases ok
      · exact List.cons_ne_nil m ms
  | _ =>
    obtain ⟨value, taken, rfl⟩ := Draft.ok_return.mp ok
    exact .compare .equal (Draft.ok_takeFor.mp taken)

/-! ## Whole filters -/

/-- A name that is passed over asks nothing. -/
theorem nil_of_unknown {path : String} {cs : List Condition}
    (ok : (unknown policy path).outcome = .ok cs) : cs = [] := by
  cases policy with
  | ignore =>
    cases ok
    rfl
  | reject => cases ok

/-- What a member is composed to, given that of what is below it. -/
theorem compiled_below {parent : Option String} {key : String} {v : Json} {cs : List Condition}
    (members : ∀ {ms parent cs}, v = .obj ms → (ofMembers r policy parent ms).outcome = .ok cs →
      Compiled (Predicate.ofMembers r parent ms) cs)
    (filters : ∀ {items op cs}, v = .arr items → (ofFilters r policy op items).outcome = .ok cs →
      Compiled (Predicate.ofFilters r items) cs)
    (ok : (ofMember r policy parent key v).outcome = .ok cs) :
    Compiled (Predicate.ofMember r parent key v) cs := by
  have kind := memberCase r policy parent key v
  generalize ofMember r policy parent key v = d at ok kind
  cases kind with
  | refused none => exact absurd ok (none cs)
  | and =>
    obtain ⟨parts, composed, rfl⟩ := Draft.ok_return.mp ok
    rw [Predicate.ofMember, if_pos rfl]
    exact (filters rfl composed).all
  | or =>
    obtain ⟨parts, composed, rfl⟩ := Draft.ok_return.mp ok
    rw [Predicate.ofMember, if_neg (by decide), if_pos rfl]
    exact (filters rfl composed).any
  | negation =>
    obtain ⟨parts, composed, rfl⟩ := Draft.ok_return.mp ok
    rw [Predicate.ofMember, if_pos rfl]
    exact (members rfl composed).negation
  | column name found =>
    rw [Predicate.ofMember_name name, found]
    exact compiled_ofField ok
  | names name found names =>
    rw [Predicate.ofMember_name name, found]
    dsimp only
    rw [names]
    exact members rfl ok
  | unknown name found operators =>
    obtain rfl := nil_of_unknown ok
    have nothing : Predicate.ofMember r parent key v = [] := by
      rw [Predicate.ofMember_name name, found]
      cases v with
      | obj inner => exact if_pos (operators inner rfl)
      | _ => rfl
    rw [nothing]
    exact .nil

mutual
/-- The members of an object: by recursion on them, as their conditions are composed. -/
theorem compiled_ofMembers {parent : Option String} :
    ∀ {members : List (String × Json)} {cs : List Condition},
      (ofMembers r policy parent members).outcome = .ok cs →
        Compiled (Predicate.ofMembers r parent members) cs
  | [], cs, ok => by
    obtain rfl := Draft.ok_pure.mp ok
    exact .nil
  | (key, value) :: more, cs, ok => by
    obtain ⟨here, first, ok⟩ := Draft.ok_bind.mp ok
    obtain ⟨rest, others, rfl⟩ := Draft.ok_return.mp ok
    exact (compiled_ofMember first).append (compiled_ofMembers others)

theorem compiled_ofMember {parent : Option String} {key : String} :
    ∀ {value : Json} {cs : List Condition},
      (ofMember r policy parent key value).outcome = .ok cs →
        Compiled (Predicate.ofMember r parent key value) cs
  | .obj _, _, ok => compiled_below (fun same => by cases same; exact compiled_ofMembers) nofun ok
  | .arr _, _, ok => compiled_below nofun (fun same => by cases same; exact compiled_ofFilters) ok
  | .null, _, ok | .bool _, _, ok | .num _, _, ok | .str _, _, ok =>
    compiled_below nofun nofun ok

theorem compiled_ofFilters {op : String} :
    ∀ {items : List Json} {cs : List Condition},
      (ofFilters r policy op items).outcome = .ok cs → Compiled (Predicate.ofFilters r items) cs
  | [], cs, ok => by
    obtain rfl := Draft.ok_pure.mp ok
    exact .nil
  | .obj members :: more, cs, ok => by
    obtain ⟨parts, first, ok⟩ := Draft.ok_bind.mp ok
    obtain ⟨rest, others, rfl⟩ := Draft.ok_return.mp ok
    exact (compiled_ofMembers first).all.append (compiled_ofFilters others)
  | .null :: _, _, ok | .bool _ :: _, _, ok | .num _ :: _, _, ok | .str _ :: _, _, ok
  | .arr _ :: _, _, ok => by cases ok
end

end DocTable.Condition
