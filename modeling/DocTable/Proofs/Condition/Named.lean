import DocTable.Proofs.Condition.Reached

/-!
# Names of a strict filter

Under the strict policy a filter is composed only when the names in it are known: each path
is a column's, or leads to one (`knows_of_reaches`). Only below names that hold nothing but
empty objects is nothing looked up.
-/

namespace DocTable
set_option autoImplicit false

/-- A path that stands for a column, or for what lies above one. -/
def Registry.Knows (r : Registry) (path : String) : Prop :=
  (∃ f, r.resolve? path = some f) ∨ ∃ below f, r.resolve? (Path.child (some path) below) = some f

namespace Registry.Knows

variable {r : Registry} {path name : String}

theorem of_child (h : r.Knows (Path.child (some path) name)) : r.Knows path := by
  rcases h with ⟨f, found⟩ | ⟨below, f, found⟩
  · exact .inr ⟨name, f, found⟩
  · refine .inr ⟨name ++ "." ++ below, f, ?_⟩
    rw [← found]
    simp only [Path.child, String.append_assoc]

end Registry.Knows

mutual
/-- An object that holds nothing but such objects. -/
def Json.isHollow : Json → Bool
  | .obj members => isHollowMembers members
  | _ => false

def Json.isHollowMembers : List (String × Json) → Bool
  | [] => true
  | (_, value) :: more => value.isHollow && isHollowMembers more
end

namespace Condition

variable {r : Registry} {parent : Option String} {key : String}

/-! ## What is composed under the strict policy -/

/-- An object below what is no column holds names, and is composed as such. -/
theorem ok_object_strict {members : Json.Members} {cs : List Condition}
    (name : isOperator key = false) (none : r.resolve? (Path.child parent key) = none)
    (ok : (ofMember r .reject parent key (.obj members)).outcome = .ok cs) :
    hasOperator members = false ∧
      (ofMembers r .reject (some (Path.child parent key)) members).outcome = .ok cs := by
  have kind := memberCase r .reject parent key (.obj members)
  generalize ofMember r .reject parent key (.obj members) = d at ok kind
  cases kind with
  | refused refused => exact absurd ok (refused cs)
  | negation => cases name
  | column _ found => cases found.symm.trans none
  | names _ _ names => exact ⟨names, ok⟩
  | unknown => cases ok

/-- Any other value is given for a column. -/
theorem ok_value_strict {v : Json} {cs : List Condition} (name : isOperator key = false)
    (notObject : ∀ members, v ≠ .obj members)
    (ok : (ofMember r .reject parent key v).outcome = .ok cs) :
    ∃ f, r.resolve? (Path.child parent key) = some f := by
  have kind := memberCase r .reject parent key v
  generalize ofMember r .reject parent key v = d at ok kind
  cases kind with
  | refused refused => exact absurd ok (refused cs)
  | and | or | negation => cases name
  | column _ found => exact ⟨_, found⟩
  | names _ _ _ => exact absurd rfl (notObject _)
  | unknown => cases ok

mutual
/-- By recursion on the value: what is unknown is looked into until a column is found. -/
theorem knows_member : ∀ (v : Json) {parent : Option String} {key : String}
    {cs : List Condition}, isOperator key = false →
    (ofMember r .reject parent key v).outcome = .ok cs →
    r.Knows (Path.child parent key) ∨ v.isHollow = true
  | .obj members, parent, key, cs, name, ok => by
    cases found : r.resolve? (Path.child parent key) with
    | some f => exact .inl (.inl ⟨f, found⟩)
    | none =>
      obtain ⟨names, composed⟩ := ok_object_strict name found ok
      refine (knows_members members ?_ composed).imp_left fun ⟨_, _, known⟩ => known.of_child
      intro m mem
      simpa using List.any_eq_false.mp names m mem
  | .null, _, _, _, name, ok | .bool _, _, _, _, name, ok | .num _, _, _, _, name, ok
  | .str _, _, _, _, name, ok | .arr _, _, _, _, name, ok =>
    .inl (.inl (ok_value_strict name (fun _ same => by cases same) ok))

theorem knows_members : ∀ (members : List (String × Json)) {parent : Option String}
    {cs : List Condition}, (∀ m ∈ members, isOperator m.1 = false) →
    (ofMembers r .reject parent members).outcome = .ok cs →
    (∃ m ∈ members, r.Knows (Path.child parent m.1)) ∨ Json.isHollowMembers members = true
  | [], _, _, _, _ => .inr rfl
  | (key, value) :: more, parent, cs, names, ok => by
    obtain ⟨name, others⟩ := List.forall_mem_cons.mp names
    obtain ⟨here, first, ok⟩ := Draft.ok_bind.mp ok
    obtain ⟨rest, later, -⟩ := Draft.ok_bind.mp ok
    rcases knows_member value name first with known | hollow
    · exact .inl ⟨_, List.mem_cons_self, known⟩
    rcases knows_members more others later with ⟨m, mem, known⟩ | hollows
    · exact .inl ⟨m, List.mem_cons_of_mem _ mem, known⟩
    · exact .inr (by rw [Json.isHollowMembers, hollow, hollows]; rfl)
end

/-! ## Names that a filter reaches -/

theorem ok_mem_ofOperators {f : Field} {operators : List (String × Json)} {op : String}
    {operand : Json} {cs : List Condition} (mem : (op, operand) ∈ operators)
    (ok : (ofOperators f operators).outcome = .ok cs) :
    ∃ parts, (ofOperator f op operand).outcome = .ok parts := by
  induction operators generalizing cs with
  | nil => cases mem
  | cons m operators ih =>
    obtain ⟨here, first, ok⟩ := Draft.ok_bind.mp ok
    obtain ⟨rest, others, -⟩ := Draft.ok_bind.mp ok
    rcases List.mem_cons.mp mem with rfl | mem
    · exact ⟨here, first⟩
    · exact ih mem others

/-- What is given for a column holds operators on it, and neither names nor filters. -/
theorem not_reaches_ofField {f : Field} {inner : Json.Members} {cs : List Condition}
    {passable : Json.Members → Prop} {path : String} {v : Json}
    (ok : (ofField f (.obj inner)).outcome = .ok cs) :
    ¬ Reaches passable inner parent path v := by
  intro reached
  obtain ⟨m, ms, rfl⟩ := List.exists_cons_of_ne_nil reached.ne_nil
  have operators : isOperatorObject (m :: ms) = true ∧
      (ofOperators f (m :: ms)).outcome = .ok cs := by
    rw [ofField] at ok
    · split at ok
      · rename_i operators
        exact ⟨operators, ok⟩
      · cases ok
    · exact List.cons_ne_nil m ms
  obtain ⟨all, ok⟩ := operators
  have operator : ∀ n ∈ m :: ms, isOperator n.1 = true := by
    simpa [isOperatorObject] using all
  -- The operators on filters are none on columns, so one of them here would have been refused.
  have noFilter (op : String) (operand : Json) (mem : (op, operand) ∈ m :: ms)
      (logical : op = "$and" ∨ op = "$or" ∨ op = "$not") : False := by
    obtain ⟨parts, composed⟩ := ok_mem_ofOperators mem ok
    rcases logical with rfl | rfl | rfl <;> cases composed
  cases reached with
  | here mem name | under mem name _ _ => cases (operator _ mem).symm.trans name
  | junction op mem _ _ => exact noFilter _ _ mem (op.imp_right .inl)
  | negation mem _ => exact noFilter _ _ mem (.inr (.inr rfl))

/-- By induction on the way to the value, as far as names are looked up. -/
theorem knows_of_reaches {members : Json.Members} {path : String} {v : Json}
    (reached : Reaches (fun _ => True) members parent path v) {cs : List Condition}
    (ok : (ofMembers r .reject parent members).outcome = .ok cs) :
    r.Knows path ∨ v.isHollow = true := by
  induction reached generalizing cs with
  | here mem name =>
    obtain ⟨parts, composed, -⟩ := ok_mem_ofMembers mem ok
    exact knows_member _ name composed
  | @under members parent key inner path v mem name _ reached ih =>
    obtain ⟨parts, composed, -⟩ := ok_mem_ofMembers mem ok
    cases found : r.resolve? (Path.child parent key) with
    | some f => exact absurd reached (not_reaches_ofField (ok_ofColumn name found composed))
    | none => exact ih (ok_object_strict name found composed).2
  | junction op mem item _ ih =>
    obtain ⟨parts, composed, -⟩ := ok_mem_ofMembers mem ok
    obtain ⟨_, branches, _, each, -⟩ := ok_ofJunction op composed
    obtain ⟨branch, filter, -⟩ := ok_mem_ofFilters item each
    exact ih filter
  | negation mem _ ih =>
    obtain ⟨parts, composed, -⟩ := ok_mem_ofMembers mem ok
    obtain ⟨operands, filter, -⟩ := Draft.ok_bind.mp composed
    exact ih filter

end Condition
end DocTable
