import DocTable.Condition.OfFilter

/-!
# How a filter is composed

What an operator asks of a field (`operatorCase`) and what one member of a filter is
composed to (`memberCase`), case by case.
-/

namespace DocTable.Condition
set_option autoImplicit false

/-! ## Operators -/

/-- The drafts of an operator on a field. -/
inductive OperatorCase (f : Field) : String → Json → Draft (List Condition) → Prop where
  | refused {op : String} {v : Json} {d : Draft (List Condition)} :
      (∀ cs, d.outcome ≠ .ok cs) → OperatorCase f op v d
  | compare {op : String} {comparison : Comparison} {v : Json} :
      comparison? op = some comparison →
      OperatorCase f op v (ofComparison f op comparison v >>= fun c => pure [c])
  | inside {items : List Json} :
      OperatorCase f "$in" (.arr items) (ofList f false items >>= fun c => pure [c])
  | anything : OperatorCase f "$nin" (.arr []) (pure [])
  | outside {items : List Json} : items ≠ [] →
      OperatorCase f "$nin" (.arr items) (ofList f true items >>= fun c => pure [c])
  | like {pattern : Json} :
      OperatorCase f "$like" pattern (ofLike f pattern >>= fun c => pure [c])
  | present : OperatorCase f "$exists" (.bool true) (pure [.isNotNull f.key])
  | absent : OperatorCase f "$exists" (.bool false) (pure [.isNull f.key])

theorem operatorCase (f : Field) (op : String) (v : Json) :
    OperatorCase f op v (ofOperator f op v) := by
  unfold ofOperator
  cases known : comparison? op with
  | some comparison => exact .compare known
  | none =>
    dsimp only
    split
    · exact .inside
    · exact .anything
    · rename_i items some
      refine .outside ?_
      rintro rfl
      exact some rfl
    · exact .refused fun _ ok => by cases ok
    · exact .refused fun _ ok => by cases ok
    · exact .like
    · exact .present
    · exact .absent
    · exact .refused fun _ ok => by cases ok
    · exact .refused fun _ ok => by cases ok

/-! ## Members -/

theorem key_of_name {key : String} (name : isOperator key = false) : Key.of key = .name := by
  simp [Key.of, name]

/-- The keys that operate on whole filters. -/
inductive KeyCase : String → Key → Prop where
  | and : KeyCase "$and" (.junction .all)
  | or : KeyCase "$or" (.junction .any)
  | negation : KeyCase "$not" .negation
  | misplaced {key : String} : KeyCase key .misplaced
  | name {key : String} : isOperator key = false → KeyCase key .name

theorem keyCase (key : String) : KeyCase key (Key.of key) := by
  cases operator : isOperator key with
  | false =>
    rw [key_of_name operator]
    exact .name operator
  | true =>
    unfold Key.of
    simp only [operator, Bool.not_true, Bool.false_eq_true, if_false]
    split
    · exact .and
    · exact .or
    · exact .negation
    · exact .misplaced

/-- The drafts of a member: the filters of an operator, the value of a column, the names
below what is no column, or what is unknown. -/
inductive MemberCase (r : Registry) (policy : FieldPolicy) (parent : Option String) :
    String → Json → Draft (List Condition) → Prop where
  | refused {key : String} {v : Json} {d : Draft (List Condition)} :
      (∀ cs, d.outcome ≠ .ok cs) → MemberCase r policy parent key v d
  | and {items : List Json} :
      MemberCase r policy parent "$and" (.arr items)
        (ofFilters r policy "$and" items >>= fun parts => pure (group .all parts))
  | or {items : List Json} :
      MemberCase r policy parent "$or" (.arr items)
        (ofFilters r policy "$or" items >>= fun parts => pure (group .any parts))
  | negation {members : Json.Members} :
      MemberCase r policy parent "$not" (.obj members)
        (ofMembers r policy none members >>= fun parts =>
          pure (if parts.isEmpty then [] else [.not parts]))
  | column {key : String} {v : Json} {f : Field} :
      isOperator key = false → r.resolve? (Path.child parent key) = some f →
      MemberCase r policy parent key v (ofField f v)
  | names {key : String} {members : Json.Members} :
      isOperator key = false → r.resolve? (Path.child parent key) = none →
      hasOperator members = false →
      MemberCase r policy parent key (.obj members)
        (ofMembers r policy (some (Path.child parent key)) members)
  | unknown {key : String} {v : Json} :
      isOperator key = false → r.resolve? (Path.child parent key) = none →
      (∀ members, v = .obj members → hasOperator members = true) →
      MemberCase r policy parent key v (unknown policy (Path.child parent key))

variable {r : Registry} {policy : FieldPolicy} {parent : Option String} {key : String}

theorem memberCase_array (items : List Json) :
    MemberCase r policy parent key (.arr items) (ofMember r policy parent key (.arr items)) := by
  rw [ofMember]
  have kind := keyCase key
  generalize Key.of key = k at kind
  cases kind with
  | and => exact .and
  | or => exact .or
  | negation | misplaced => exact .refused fun _ ok => by cases ok
  | name name =>
    dsimp only
    cases found : r.resolve? (Path.child parent key) with
    | some f => exact .column name found
    | none => exact .unknown name found fun _ object => by cases object

theorem memberCase_object (members : Json.Members) :
    MemberCase r policy parent key (.obj members)
      (ofMember r policy parent key (.obj members)) := by
  rw [ofMember]
  have kind := keyCase key
  generalize Key.of key = k at kind
  cases kind with
  | and | or | misplaced => exact .refused fun _ ok => by cases ok
  | negation => exact .negation
  | name name =>
    dsimp only
    cases found : r.resolve? (Path.child parent key) with
    | some f => exact .column name found
    | none =>
      dsimp only
      split
      · rename_i operators
        refine .unknown name found ?_
        rintro _ ⟨⟩
        exact operators
      · rename_i names
        exact .names name found (Bool.eq_false_iff.mpr names)

theorem memberCase_scalar {v : Json} (notObject : ∀ members, v ≠ .obj members)
    (notList : ∀ items, v ≠ .arr items) :
    MemberCase r policy parent key v (ofMember r policy parent key v) := by
  rw [ofMember.eq_3 r policy parent key v notObject notList]
  have kind := keyCase key
  generalize Key.of key = k at kind
  cases kind with
  | and | or | negation | misplaced => exact .refused fun _ ok => by cases ok
  | name name =>
    dsimp only
    cases found : r.resolve? (Path.child parent key) with
    | some f => exact .column name found
    | none => exact .unknown name found fun members object => absurd object (notObject members)

/-- A member is composed in one of the ways. -/
theorem memberCase (r : Registry) (policy : FieldPolicy) (parent : Option String) (key : String)
    (v : Json) : MemberCase r policy parent key v (ofMember r policy parent key v) := by
  cases v with
  | arr items => exact memberCase_array items
  | obj members => exact memberCase_object members
  | null | bool _ | num _ | str _ =>
    refine memberCase_scalar ?_ ?_ <;> intro _ other <;> cases other

end DocTable.Condition
