import DocTable.Clause.Session
import DocTable.Proofs.Condition.Cases
import DocTable.Proofs.Registry.Resolution

/-!
# Spellings of a path

A filter names a column by its key, by its path, or by objects within objects along the path.
All of them say the same, unless one of the objects stands under a name that is itself a
column (`spelled_alike_iff`).
-/

namespace DocTable
set_option autoImplicit false

/-- A value below some names, each of them in an object under the one before. -/
def Json.under (v : Json) : List String → Json
  | [] => v
  | name :: more => .obj [(name, v.under more)]

/-- Names that spell a column: its key, or pieces of its path, any number of segments each. -/
def Field.IsSpelled (f : Field) (name : String) (more : List String) : Prop :=
  (name = f.key ∧ more = []) ∨ ".".intercalate (name :: more) = f.sourcePath

namespace Condition

variable {r : Registry} {policy : FieldPolicy} {parent : Option String} {key : String} {f : Field}

theorem mem_of_isOperator (operator : isOperator key = true) : '$' ∈ key.toList := by
  unfold isOperator at operator
  split at operator
  · rename_i whole
    rw [whole]
    exact List.mem_cons_self
  · cases operator

theorem ofMembers_singleton (v : Json) :
    ofMembers r policy parent [(key, v)] = ofMember r policy parent key v := by
  rw [ofMembers, ofMembers]
  simp

theorem ofMember_column (name : isOperator key = false)
    (found : r.resolve? (Path.child parent key) = some f) (v : Json) :
    ofMember r policy parent key v = ofField f v := by
  cases v <;> simp [ofMember, key_of_name name, found]

theorem ofMember_names (name : isOperator key = false)
    (none : r.resolve? (Path.child parent key) = none) {members : Json.Members}
    (names : hasOperator members = false) :
    ofMember r policy parent key (.obj members) =
      ofMembers r policy (some (Path.child parent key)) members := by
  simp [ofMember, key_of_name name, none, names]

/-- An object with a name in it is nothing that a column can be asked. -/
theorem ofField_names {name : String} {v : Json} (notOperator : isOperator name = false) :
    ofField f (.obj [(name, v)]) = Draft.fail (.filter (.valueOrOperators f.sourcePath)) := by
  have names : ¬ isOperatorObject [(name, v)] = true := by simp [isOperatorObject, notOperator]
  rw [ofField, if_neg names]
  · rfl
  · exact List.cons_ne_nil _ _

/-- What names in each other ask of the column that they spell, by induction on the names: an
object on the way that stands under a column is refused. -/
theorem ofMember_under {name : String} {more : List String}
    (names : ∀ n ∈ name :: more, isOperator n = false)
    (found : r.resolve? (".".intercalate (Path.child parent name :: more)) = some f) (v : Json) :
    ofMember r policy parent name (v.under more) =
      match (Path.passed (Path.child parent name) more).findSome? r.resolve? with
      | some g => Draft.fail (.filter (.valueOrOperators g.sourcePath))
      | none => ofField f v := by
  obtain ⟨first, others⟩ := List.forall_mem_cons.mp names
  induction more generalizing parent name with
  | nil =>
    rw [String.intercalate_singleton] at found
    exact ofMember_column first found v
  | cons next more ih =>
    obtain ⟨second, _⟩ := List.forall_mem_cons.mp others
    rw [Path.passed, List.findSome?_cons, Json.under]
    cases here : r.resolve? (Path.child parent name) with
    | some g => rw [ofMember_column first here, ofField_names second]
    | none =>
      have below : hasOperator [(next, v.under more)] = false := by simp [hasOperator, second]
      rw [ofMember_names first here below, ofMembers_singleton]
      rw [← Path.intercalate_child] at found
      exact ih others found second (List.forall_mem_cons.mp others).2

end Condition

namespace Registry.WellFormed

variable {r : Registry} {f : Field} {name : String} {more : List String}

/-- No name of a spelling is an operator. -/
theorem names_of_isSpelled (h : r.WellFormed) (mem : f ∈ r.fields)
    (spelled : f.IsSpelled name more) : ∀ n ∈ name :: more, Condition.isOperator n = false := by
  intro n inside
  rw [Bool.eq_false_iff]
  intro operator
  have dollar := Condition.mem_of_isOperator operator
  rcases spelled with ⟨rfl, rfl⟩ | path
  · obtain rfl := List.mem_singleton.mp inside
    have rest := Identifier.isRest_of_mem (h.word f mem) dollar
    revert rest
    decide
  · have inPath : '$' ∈ f.sourcePath.toList := by
      rw [← path]
      exact Path.mem_toList_intercalate inside dollar
    have visible := Path.visible_of_isWord (h.isWord_path mem) inPath
    revert visible
    decide

theorem resolve?_of_isSpelled (h : r.WellFormed) (mem : f ∈ r.fields)
    (spelled : f.IsSpelled name more) : r.resolve? (".".intercalate (name :: more)) = some f := by
  rcases spelled with ⟨rfl, rfl⟩ | path
  · rw [String.intercalate_singleton]
    exact h.resolve?_key mem
  · rw [path]
    exact h.resolve?_sourcePath mem

/-- A column that a spelling passes has another path. -/
theorem sourcePath_ne_of_passed (h : r.WellFormed) (spelled : f.IsSpelled name more) {g : Field}
    (passes : (Path.passed name more).findSome? r.resolve? = some g) :
    g.sourcePath ≠ f.sourcePath := by
  obtain ⟨above, mem, found⟩ := List.exists_of_findSome?_eq_some passes
  rcases spelled with ⟨rfl, rfl⟩ | path
  · cases mem
  · obtain ⟨below, whole⟩ := Path.exists_below_of_mem_passed mem
    exact h.sourcePath_ne_of_above (path ▸ whole) found

end Registry.WellFormed

/-! ## Clauses -/

namespace Clause

/-- The clause of a filter in a session, and the session after it. -/
def addWhere (s : Session) (r : Registry) (policy : FieldPolicy) (filter : Filter) :
    Except Error (Option String) × Session :=
  s.add (Condition.conjunctionFragment <$> Condition.ofFilter r policy filter)

variable {r : Registry} {f : Field} {name : String} {more : List String}

/-- The clause of a spelling is the one that the column is asked, or none is accepted. -/
theorem addWhere_spelled (h : r.WellFormed) (mem : f ∈ r.fields)
    (spelled : f.IsSpelled name more) (s : Session) (policy : FieldPolicy) (v : Json) :
    addWhere s r policy ⟨[(name, v.under more)]⟩ =
      match (Path.passed name more).findSome? r.resolve? with
      | some g => (.error (.filter (.valueOrOperators g.sourcePath)), s)
      | none => s.add (Condition.conjunctionFragment <$> Condition.ofField f v) := by
  have found : r.resolve? (".".intercalate (Path.child none name :: more)) = some f :=
    h.resolve?_of_isSpelled mem spelled
  rw [addWhere, Condition.ofFilter, Condition.ofMembers_singleton,
    Condition.ofMember_under (h.names_of_isSpelled mem spelled) found, Path.child]
  cases (Path.passed name more).findSome? r.resolve? with
  | none => rfl
  | some g => simp [Session.add, Session.pushAll, Draft.fail, Except.map]

/-- **Spellings of a path say the same, unless they pass a column.** In the registry of a
schema, a value below names that spell a column gets the same clause and binds the same as the
value under the column's key, whatever the value, if and only if no object on the way stands
under another column. If one does, the filter is refused there. -/
theorem spelled_alike_iff {schema : Json} (built : Registry.ofSchema schema = .ok r)
    (mem : f ∈ r.fields) (spelled : f.IsSpelled name more) :
    ((∀ s policy (v : Json), addWhere s r policy ⟨[(name, v.under more)]⟩ =
        addWhere s r policy ⟨[(f.key, v)]⟩) ↔
      ∀ path ∈ Path.passed name more, r.resolve? path = none) ∧
    ∀ g, (Path.passed name more).findSome? r.resolve? = some g → g.sourcePath ≠ f.sourcePath ∧
      ∀ s policy (v : Json), addWhere s r policy ⟨[(name, v.under more)]⟩ =
        (.error (.filter (.valueOrOperators g.sourcePath)), s) := by
  have h := Registry.wellFormed_ofSchema built
  have byKey (s : Session) (policy : FieldPolicy) (v : Json) :
      addWhere s r policy ⟨[(f.key, v)]⟩ =
        s.add (Condition.conjunctionFragment <$> Condition.ofField f v) :=
    addWhere_spelled h mem (.inl ⟨rfl, rfl⟩) s policy v
  have refused {g : Field} (passes : (Path.passed name more).findSome? r.resolve? = some g)
      (s : Session) (policy : FieldPolicy) (v : Json) :
      addWhere s r policy ⟨[(name, v.under more)]⟩ =
        (.error (.filter (.valueOrOperators g.sourcePath)), s) := by
    rw [addWhere_spelled h mem spelled, passes]
  refine ⟨⟨fun same => ?_, fun free s policy v => ?_⟩, fun g passes => ?_⟩
  · rw [← List.findSome?_eq_none_iff, Option.eq_none_iff_forall_ne_some]
    intro g passes
    -- Of all values, null is accepted by every column.
    have null := same (.start .postgres false) .ignore .null
    rw [refused passes, byKey] at null
    cases congrArg Prod.fst null
  · rw [byKey, addWhere_spelled h mem spelled, List.findSome?_eq_none_iff.mpr free]
  · exact ⟨h.sourcePath_ne_of_passed spelled passes, refused passes⟩

/-- A column whose key is what a path above another column is flattened to. -/
def shadowed : Json :=
  let object (properties : Json.Members) : Json :=
    .obj [("type", .str "object"), ("required", .arr []), ("properties", .obj properties)]
  object [("a___b", .obj [("type", .str "string")]),
    ("a", object [("b", object [("c", .obj [("type", .str "integer")])])])]

def shadow : Field := ⟨"a___b", "a___b", .text, false, false, false, none⟩

def deep : Field := ⟨"a___b___c", "a.b.c", .number, false, false, false, none⟩

/-- `{"a": {"b.c": 1}}` passes no column. -/
theorem spelled_alike_joined :
    addWhere (.start .postgres false) ⟨[shadow, deep]⟩ .reject
        ⟨[("a", .obj [("b.c", .num (.int 1))])]⟩ =
      addWhere (.start .postgres false) ⟨[shadow, deep]⟩ .reject
        ⟨[("a___b___c", .num (.int 1))]⟩ := by
  have built : Registry.ofSchema shadowed = .ok ⟨[shadow, deep]⟩ := rfl
  have mem : deep ∈ (Registry.mk [shadow, deep]).fields := by decide +kernel
  have spelled : deep.IsSpelled "a" ["b.c"] := .inr (by decide +kernel)
  refine (spelled_alike_iff built mem spelled).1.mpr ?_ _ _ (.num (.int 1))
  decide +kernel

/-- `{"a": {"b": {"c": 1}}}` passes the column `a___b`, and is refused. -/
theorem spelled_differs :
    ∃ r, Registry.ofSchema shadowed = .ok r ∧ deep ∈ r.fields ∧
      deep.IsSpelled "a" ["b", "c"] ∧
      addWhere (.start .postgres false) r .ignore
          ⟨[("a", .obj [("b", .obj [("c", .num (.int 1))])])]⟩ =
        (.error (.filter (.valueOrOperators "a___b")), .start .postgres false) ∧
      addWhere (.start .postgres false) r .ignore ⟨[("a.b.c", .num (.int 1))]⟩ =
        (.ok (some "\"a___b___c\" = $1"), ⟨.of .postgres false, [.integer 1]⟩) := by
  refine ⟨⟨[shadow, deep]⟩, rfl, ?_, .inr ?_, ?_, ?_⟩ <;> decide +kernel

end Clause
end DocTable
