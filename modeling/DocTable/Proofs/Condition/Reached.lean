import DocTable.Proofs.Condition.Cases
import DocTable.Proofs.Statement.Outcome

/-!
# Conditions of a value within a filter

What is composed for a value stays in what is composed for the filter around it, when the
way to the value leads through names alone and through filters (`held_of_reaches`).
-/

namespace DocTable
set_option autoImplicit false

/-! ## Conditions among others -/

namespace Fragment

theorem infix_separatedBy (separator : String) {f : Fragment} {fs : List Fragment} (h : f ∈ fs) :
    f <:+: separatedBy separator fs := by
  induction fs with
  | nil => cases h
  | cons g gs ih =>
    cases gs with
    | nil =>
      obtain rfl := List.mem_singleton.mp h
      exact List.infix_refl f
    | cons g' gs =>
      rcases List.mem_cons.mp h with rfl | h
      · exact (List.prefix_append f _).isInfix
      · have tail : separatedBy separator (g' :: gs) <:+
            g ++ .word separator :: separatedBy separator (g' :: gs) :=
          (List.suffix_cons _ _).trans (List.suffix_append g _)
        exact (ih h).trans tail.isInfix

theorem infix_parenthesized (f : Fragment) : f <:+: parenthesized f :=
  ⟨[.word "("], [.word ")"], rfl⟩

end Fragment

namespace Condition

/-- A condition is one of some, or is written inside of one. -/
def Held (c : Condition) (cs : List Condition) : Prop := ∃ d ∈ cs, c.fragment <:+: d.fragment

theorem mem_fragments {c : Condition} {cs : List Condition} (h : c ∈ cs) :
    c.fragment ∈ fragments cs := by
  induction h with
  | head cs => exact List.mem_cons_self
  | tail d _ ih => exact List.mem_cons_of_mem _ ih

namespace Held

variable {c : Condition} {cs ds parts : List Condition}

theorem of_mem (h : c ∈ cs) : Held c cs := ⟨c, h, List.infix_refl _⟩

theorem mono (held : Held c cs) (sub : cs ⊆ ds) : Held c ds := by
  obtain ⟨d, mem, inside⟩ := held
  exact ⟨d, sub mem, inside⟩

theorem separatedBy (held : Held c cs) (separator : String) :
    c.fragment <:+: Fragment.separatedBy separator (fragments cs) := by
  obtain ⟨d, mem, inside⟩ := held
  exact inside.trans (Fragment.infix_separatedBy separator (mem_fragments mem))

theorem all (held : Held c parts) : Held c [.all parts] :=
  ⟨_, List.mem_singleton_self _, (held.separatedBy " AND ").trans (Fragment.infix_parenthesized _)⟩

theorem any (held : Held c parts) : Held c [.any parts] :=
  ⟨_, List.mem_singleton_self _, (held.separatedBy " OR ").trans (Fragment.infix_parenthesized _)⟩

theorem not (held : Held c parts) : Held c [.not parts] :=
  ⟨_, List.mem_singleton_self _, ((held.separatedBy " AND ").trans
    (Fragment.infix_parenthesized _)).trans (List.suffix_cons _ _).isInfix⟩

theorem group {join : List Condition → Condition}
    (joined : ∀ {parts}, Held c parts → Held c [join parts]) (held : Held c parts) :
    Held c (group join parts) := by
  unfold Condition.group
  split
  · exact held
  · exact held
  · exact joined held

end Held

/-! ## Values that a filter reaches -/

/-- The value stands in an object at a path, which counts from the object or from a filter
within it; an object below a name is gone through when it may be. -/
inductive Reaches (passable : Json.Members → Prop) :
    Json.Members → Option String → String → Json → Prop where
  | here {members parent key v} :
      (key, v) ∈ members → isOperator key = false →
      Reaches passable members parent (Path.child parent key) v
  | under {members parent key inner path v} :
      (key, .obj inner) ∈ members → isOperator key = false → passable inner →
      Reaches passable inner (some (Path.child parent key)) path v →
      Reaches passable members parent path v
  | junction {members parent op items inner path v} :
      op = "$and" ∨ op = "$or" → (op, .arr items) ∈ members → .obj inner ∈ items →
      Reaches passable inner none path v →
      Reaches passable members parent path v
  | negation {members parent inner path v} :
      ("$not", .obj inner) ∈ members →
      Reaches passable inner none path v →
      Reaches passable members parent path v

theorem Reaches.ne_nil {passable : Json.Members → Prop} {members : Json.Members}
    {parent : Option String} {path : String} {v : Json}
    (reached : Reaches passable members parent path v) : members ≠ [] := by
  cases reached with
  | here mem _ | under mem _ _ _ | junction _ mem _ _ | negation mem _ =>
    exact List.ne_nil_of_mem mem

/-! ## What of a filter is composed -/

variable {r : Registry} {policy : FieldPolicy} {parent : Option String}

theorem ok_mem_ofMembers {members : Json.Members} {key : String} {v : Json} {cs : List Condition}
    (mem : (key, v) ∈ members) (ok : (ofMembers r policy parent members).outcome = .ok cs) :
    ∃ parts, (ofMember r policy parent key v).outcome = .ok parts ∧ parts ⊆ cs := by
  induction members generalizing cs with
  | nil => cases mem
  | cons m more ih =>
    obtain ⟨here, first, ok⟩ := Draft.ok_bind.mp ok
    obtain ⟨rest, others, rfl⟩ := Draft.ok_return.mp ok
    rcases List.mem_cons.mp mem with rfl | mem
    · exact ⟨here, first, List.subset_append_left _ _⟩
    · obtain ⟨parts, composed, sub⟩ := ih mem others
      exact ⟨parts, composed, List.subset_append_of_subset_right _ sub⟩

theorem ok_mem_ofFilters {op : String} {items : List Json} {inner : Json.Members}
    {cs : List Condition} (mem : .obj inner ∈ items)
    (ok : (ofFilters r policy op items).outcome = .ok cs) :
    ∃ parts, (ofMembers r policy none inner).outcome = .ok parts ∧ group .all parts ⊆ cs := by
  induction items generalizing cs with
  | nil => cases mem
  | cons item more ih =>
    cases item with
    | obj members =>
      obtain ⟨here, first, ok⟩ := Draft.ok_bind.mp ok
      obtain ⟨rest, others, rfl⟩ := Draft.ok_return.mp ok
      rcases List.mem_cons.mp mem with same | mem
      · obtain rfl := Json.obj.inj same
        exact ⟨here, first, List.subset_append_left _ _⟩
      · obtain ⟨parts, composed, sub⟩ := ih mem others
        exact ⟨parts, composed, List.subset_append_of_subset_right _ sub⟩
    | _ => cases ok

/-- What is given for a column is composed as its value. -/
theorem ok_ofColumn {key : String} {v : Json} {f : Field} {cs : List Condition}
    (name : isOperator key = false) (known : r.resolve? (Path.child parent key) = some f)
    (ok : (ofMember r policy parent key v).outcome = .ok cs) : (ofField f v).outcome = .ok cs := by
  have kind := memberCase r policy parent key v
  generalize ofMember r policy parent key v = d at ok kind
  cases kind with
  | refused none => exact absurd ok (none cs)
  | and | or | negation => cases name
  | column _ found =>
    obtain rfl := Option.some.inj (known.symm.trans found)
    exact ok
  | names _ found _ | unknown _ found _ => cases known.symm.trans found

/-- The filters of a list are composed one by one, and joined. -/
theorem ok_ofJunction {op : String} {items : List Json} {cs : List Condition}
    (junction : op = "$and" ∨ op = "$or")
    (ok : (ofMember r policy parent op (.arr items)).outcome = .ok cs) :
    ∃ join branches, (∀ {c parts}, Held c parts → Held c [join parts]) ∧
      (ofFilters r policy op items).outcome = .ok branches ∧ cs = group join branches := by
  rcases junction with rfl | rfl
  · rw [ofMember] at ok
    obtain ⟨branches, each, rfl⟩ := Draft.ok_return.mp ok
    exact ⟨.all, branches, Held.all, each, rfl⟩
  · rw [ofMember] at ok
    obtain ⟨branches, each, rfl⟩ := Draft.ok_return.mp ok
    exact ⟨.any, branches, Held.any, each, rfl⟩

/-- An object of names is read below its own name; none is given for a column. -/
theorem ok_ofNames {key : String} {inner : Json.Members} {cs : List Condition}
    (name : isOperator key = false) (names : hasOperator inner = false) (some : inner ≠ [])
    (ok : (ofMember r policy parent key (.obj inner)).outcome = .ok cs) :
    (ofMembers r policy (Option.some (Path.child parent key)) inner).outcome = .ok cs := by
  have kind := memberCase r policy parent key (.obj inner)
  generalize ofMember r policy parent key (.obj inner) = d at ok kind
  cases kind with
  | refused none => exact absurd ok (none cs)
  | negation => cases name
  | column _ _ =>
    obtain ⟨m, ms, rfl⟩ := List.exists_cons_of_ne_nil some
    have mixed : isOperatorObject (m :: ms) = false := by
      rw [hasOperator, List.any_cons, Bool.or_eq_false_iff] at names
      simp [isOperatorObject, names.1]
    rw [ofField, mixed] at ok
    · cases ok
    · exact List.cons_ne_nil m ms
  | names _ _ _ => exact ok
  | unknown _ _ operators => exact absurd (operators inner rfl) (Bool.eq_false_iff.mp names)

/-- By induction on the way to the value: what is composed of a part stays in the whole. -/
theorem held_of_reaches {members : Json.Members} {path : String} {v : Json} {f : Field}
    (reached : Reaches (fun inner => hasOperator inner = false) members parent path v)
    (known : r.resolve? path = some f) {cs : List Condition}
    (ok : (ofMembers r policy parent members).outcome = .ok cs) :
    ∃ parts, (ofField f v).outcome = .ok parts ∧ ∀ c ∈ parts, Held c cs := by
  induction reached generalizing cs with
  | here mem name =>
    obtain ⟨parts, composed, sub⟩ := ok_mem_ofMembers mem ok
    exact ⟨parts, ok_ofColumn name known composed, fun c hc => .of_mem (sub hc)⟩
  | under mem name names reached ih =>
    obtain ⟨inside, composed, sub⟩ := ok_mem_ofMembers mem ok
    obtain ⟨parts, field, held⟩ := ih known (ok_ofNames name names reached.ne_nil composed)
    exact ⟨parts, field, fun c hc => (held c hc).mono sub⟩
  | junction op mem item _ ih =>
    obtain ⟨inside, composed, sub⟩ := ok_mem_ofMembers mem ok
    obtain ⟨join, branches, joined, each, rfl⟩ := ok_ofJunction op composed
    obtain ⟨branch, filter, among⟩ := ok_mem_ofFilters item each
    obtain ⟨parts, field, held⟩ := ih known filter
    refine ⟨parts, field, fun c hc => ?_⟩
    have inBranch : Held c (group .all branch) := (held c hc).group Held.all
    exact ((inBranch.mono among).group joined).mono sub
  | negation mem _ ih =>
    obtain ⟨inside, composed, sub⟩ := ok_mem_ofMembers mem ok
    obtain ⟨operands, filter, rfl⟩ := Draft.ok_return.mp composed
    obtain ⟨parts, field, held⟩ := ih known filter
    refine ⟨parts, field, fun c hc => Held.mono ?_ sub⟩
    cases operands with
    | nil => exact absurd (held c hc).choose_spec.1 List.not_mem_nil
    | cons d ds => exact (held c hc).not

end Condition
end DocTable
