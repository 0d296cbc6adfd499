import DocTable.Clause.Ids
import DocTable.Condition.OfFilter
import DocTable.Proofs.Clause.Columnwise
import DocTable.Proofs.Statement.Composed

/-!
# Clauses are composed drafts

A clause takes texts and values for fields, and is refused only for what the client asked: for
filters this is by the recursion that composes them, with each operator and each kind of member
a case.
-/

namespace DocTable
set_option autoImplicit false

variable {r : Registry} {policy : FieldPolicy} {f : Field}

theorem FieldPolicy.unknown_failsByClient (name : String) :
    FailsByClient (policy.unknown name) := by
  cases policy with
  | ignore => exact .ok ()
  | reject => exact .error rfl

/-! ## Conditions -/

namespace Condition

theorem composed_listValues (items : List Json) :
    Draft.Composed (listValues f items) := by
  induction items with
  | nil => exact .pure []
  | cons item items ih =>
    cases item with
    | arr _ | obj _ => exact .fail rfl
    | _ => exact (Draft.Composed.takeFor f _).bind fun _ => ih.bind fun _ => .pure _

theorem composed_ofList (negated : Bool) (items : List Json) :
    Draft.Composed (ofList f negated items) := by
  cases items with
  | nil => exact .pure _
  | cons item items => exact (composed_listValues (item :: items)).bind fun _ => .pure _

theorem composed_ofComparison (op : String) (comparison : Comparison) (v : Json) :
    Draft.Composed (ofComparison f op comparison v) := by
  cases v with
  | null =>
    cases comparison with
    | equal | notEqual => exact .pure _
    | _ => exact .fail rfl
  | arr _ | obj _ => exact .fail rfl
  | _ => exact (Draft.Composed.takeFor f _).bind fun _ => .pure _

theorem composed_ofLike (v : Json) : Draft.Composed (ofLike f v) := by
  cases v with
  | str pattern =>
    rw [ofLike]
    split
    · exact (Draft.Composed.text _).bind fun _ => .pure _
    · exact .fail rfl
  | _ => exact .fail rfl

theorem composed_ofOperator (op : String) (operand : Json) :
    Draft.Composed (ofOperator f op operand) := by
  unfold ofOperator
  cases comparison? op with
  | some comparison =>
    exact (composed_ofComparison op comparison operand).bind fun _ => .pure _
  | none =>
    dsimp only
    split
    · exact (composed_ofList false _).bind fun _ => .pure _
    · exact .pure []
    · exact (composed_ofList true _).bind fun _ => .pure _
    · exact .fail rfl
    · exact .fail rfl
    · exact (composed_ofLike operand).bind fun _ => .pure _
    · exact .pure _
    · exact .pure _
    · exact .fail rfl
    · exact .fail rfl

theorem composed_ofOperators (members : List (String × Json)) :
    Draft.Composed (ofOperators f members) := by
  induction members with
  | nil => exact .pure []
  | cons member more ih =>
    exact (composed_ofOperator member.1 member.2).bind fun _ => ih.bind fun _ => .pure _

theorem composed_ofField (v : Json) : Draft.Composed (ofField f v) := by
  cases v with
  | null => exact .pure _
  | arr items => exact (composed_ofList false items).bind fun _ => .pure _
  | obj members =>
    cases members with
    | nil => exact .pure []
    | cons member more =>
      rw [ofField]
      split
      · exact composed_ofOperators (member :: more)
      · exact .fail rfl
      · exact nofun
  | _ => exact (Draft.Composed.takeFor f _).bind fun _ => .pure _

theorem composed_unknown (path : String) : Draft.Composed (unknown policy path) :=
  .ofExcept ((FieldPolicy.unknown_failsByClient path).map _)

variable {parent : Option String} {key : String}

/-- A member with an object, given what is composed below it. -/
theorem composed_ofObject {members : Json.Members}
    (below : ∀ parent, Draft.Composed (ofMembers r policy parent members)) :
    Draft.Composed (ofMember r policy parent key (.obj members)) := by
  rw [ofMember]
  cases Key.of key with
  | junction join => exact .fail rfl
  | negation => exact (below none).bind fun _ => .pure _
  | misplaced => exact .fail rfl
  | name =>
    dsimp only
    cases r.resolve? (Path.child parent key) with
    | some f => exact composed_ofField _
    | none =>
      dsimp only
      split
      · exact composed_unknown _
      · exact below _

/-- A member with a list, given what is composed of its items. -/
theorem composed_ofArray {items : List Json}
    (below : ∀ op, Draft.Composed (ofFilters r policy op items)) :
    Draft.Composed (ofMember r policy parent key (.arr items)) := by
  rw [ofMember]
  cases Key.of key with
  | junction join => exact (below key).bind fun _ => .pure _
  | negation => exact .fail rfl
  | misplaced => exact .fail rfl
  | name =>
    dsimp only
    cases r.resolve? (Path.child parent key) with
    | some f => exact composed_ofField _
    | none => exact composed_unknown _

theorem composed_ofScalar {v : Json} (notObject : ∀ members, v ≠ .obj members)
    (notList : ∀ items, v ≠ .arr items) :
    Draft.Composed (ofMember r policy parent key v) := by
  rw [ofMember.eq_3 r policy parent key v notObject notList]
  cases Key.of key with
  | junction join => exact .fail rfl
  | negation => exact .fail rfl
  | misplaced => exact .fail rfl
  | name =>
    dsimp only
    cases r.resolve? (Path.child parent key) with
    | some f => exact composed_ofField _
    | none => exact composed_unknown _

mutual
/-- By recursion on the members, as their conditions are composed. -/
theorem composed_ofMembers : ∀ (members : List (String × Json)) (parent : Option String),
    Draft.Composed (ofMembers r policy parent members)
  | [], _ => .pure []
  | (key, value) :: more, parent =>
    (composed_ofMember value parent key).bind fun _ =>
      (composed_ofMembers more parent).bind fun _ => .pure _

theorem composed_ofMember : ∀ (v : Json) (parent : Option String) (key : String),
    Draft.Composed (ofMember r policy parent key v)
  | .obj members, _, _ => composed_ofObject (composed_ofMembers members)
  | .arr items, _, _ => composed_ofArray (composed_ofFilters items)
  | .null, _, _ | .bool _, _, _ | .num _, _, _ | .str _, _, _ => composed_ofScalar nofun nofun

theorem composed_ofFilters : ∀ (items : List Json) (op : String),
    Draft.Composed (ofFilters r policy op items)
  | [], _ => .pure []
  | .obj members :: more, op =>
    (composed_ofMembers members none).bind fun _ =>
      (composed_ofFilters more op).bind fun _ => .pure _
  | .null :: _, _ | .bool _ :: _, _ | .num _ :: _, _ | .str _ :: _, _ | .arr _ :: _, _ =>
    .fail rfl
end

end Condition

/-! ## Columns, orders, values and ids -/

namespace Clause

theorem lookUp_failsByClient (name : String) : FailsByClient (lookUp r policy name) := by
  unfold lookUp
  cases r.resolve? name with
  | some f => exact .ok _
  | none => exact (FieldPolicy.unknown_failsByClient name).map _

theorem select_failsByClient (names : List String) : FailsByClient (select r policy names) := by
  have projected : FailsByClient (projection r policy names) :=
    (FailsByClient.mapM lookUp_failsByClient names).bind fun _ => .ok _
  exact projected.bind fun _ => .ok _

theorem sortTerm_failsByClient (token : String) : FailsByClient (sortTerm r policy token) := by
  unfold sortTerm
  split
  · exact .ok none
  · exact (lookUp_failsByClient _).map _

theorem orderBy_failsByClient (tokens : List String) :
    FailsByClient (orderBy r policy tokens) := by
  have ordered : FailsByClient (ordering r policy tokens) :=
    (FailsByClient.mapM sortTerm_failsByClient tokens).bind fun _ => .ok _
  exact ordered.bind fun _ => .ok _

theorem checkNames_failsByClient (record : Record) :
    FailsByClient (checkNames r policy record) := by
  unfold checkNames
  cases policy with
  | ignore => exact .ok ()
  | reject =>
    dsimp only
    split
    · exact .error rfl
    · exact .ok ()

theorem checkRecord_failsByClient (record : Record) :
    FailsByClient (checkRecord r policy record) := by
  refine (checkNames_failsByClient record).bind fun _ => ?_
  split
  · exact .ok ()
  · exact .error rfl

theorem composed_cell (record : Record) (f : Field) :
    Draft.Composed (cell record f) := by
  unfold cell
  cases cell? record f with
  | some v => exact (Draft.Composed.takeFor f v).bind fun _ => .pure _
  | none => exact .pure _

theorem composed_row (columns : List Field) (record : Record) :
    Draft.Composed (row columns record) :=
  (Draft.Composed.mapM (composed_cell record) columns).bind fun _ => .pure _

theorem composed_insertion (records : List Record) :
    Draft.Composed (insertion r policy records) := by
  rw [insertion_eq]
  split
  · exact .fail rfl
  · have checked : Draft.Composed (.ofExcept (records.forM (checkRecord r policy))) :=
      .ofExcept (FailsByClient.forM checkRecord_failsByClient records)
    exact checked.bind fun _ =>
      (Draft.Composed.mapM (composed_row _) records).bind fun _ => .pure _

theorem composed_assignment (leaf : String × Json) :
    Draft.Composed (assignment r policy leaf.1 leaf.2) := by
  unfold assignment
  cases r.get? leaf.1 with
  | none => exact .ofExcept ((FieldPolicy.unknown_failsByClient leaf.1).map _)
  | some f =>
    dsimp only
    split
    · exact .pure []
    · exact (Draft.Composed.takeFor f leaf.2).bind fun _ => .pure _

theorem composed_assignments (record : Record) :
    Draft.Composed (assignments r policy record) := by
  refine (Draft.Composed.mapM composed_assignment record.flatten).bind fun each => ?_
  split
  · exact .fail rfl
  · exact .pure _

theorem composed_idValues (ids : List String) : Draft.Composed (idValues ids) := by
  refine (Draft.Composed.mapM (fun s => .text s) _).bind fun values => ?_
  split
  · exact .fail rfl
  · exact .pure _

end Clause
end DocTable
