import DocTable.Clause.Session
import DocTable.Condition.OfFilter
import DocTable.Proofs.Clause.Columnwise
import DocTable.Proofs.Statement.Narrowing

/-!
# Clauses under a strict policy

Every clause composed under the strict policy narrows the same clause under the lenient one
(`ClauseRequest.draft_narrows`). For filters this is by the recursion that composes them: the
policies part only where a name is unknown.
-/

namespace DocTable
set_option autoImplicit false

variable {r : Registry}

namespace FieldPolicy

/-- Where the policies part: the strict one refuses, whatever else happens. -/
theorem narrows_unknown {α : Type} (name : String) (g : Unit → α) (lenient : Except Error α) :
    Narrows ((FieldPolicy.reject.unknown name).map g) lenient := .refused name lenient

end FieldPolicy

/-! ## Conditions -/

namespace Condition

theorem narrows_unknown (path : String) (lenient : Draft (List Condition)) :
    Draft.Narrows (unknown .reject path) lenient := .inr ⟨path, rfl⟩

variable {parent : Option String} {key : String}

/-- A member with an object, given what is composed below it. -/
theorem narrows_object {members : Json.Members}
    (below : ∀ parent, Draft.Narrows (ofMembers r .reject parent members)
      (ofMembers r .ignore parent members)) :
    Draft.Narrows (ofMember r .reject parent key (.obj members))
      (ofMember r .ignore parent key (.obj members)) := by
  rw [ofMember, ofMember]
  cases Key.of key with
  | junction join => exact .refl _
  | negation => exact (below none).bind fun _ => .refl _
  | misplaced => exact .refl _
  | name =>
    dsimp only
    cases r.resolve? (Path.child parent key) with
    | some f => exact .refl _
    | none =>
      dsimp only
      split
      · exact narrows_unknown _ _
      · exact below _

/-- A member with a list, given what is composed of its items. -/
theorem narrows_array {items : List Json}
    (below : ∀ op, Draft.Narrows (ofFilters r .reject op items) (ofFilters r .ignore op items)) :
    Draft.Narrows (ofMember r .reject parent key (.arr items))
      (ofMember r .ignore parent key (.arr items)) := by
  rw [ofMember, ofMember]
  cases Key.of key with
  | junction join => exact (below key).bind fun _ => .refl _
  | negation => exact .refl _
  | misplaced => exact .refl _
  | name =>
    dsimp only
    cases r.resolve? (Path.child parent key) with
    | some f => exact .refl _
    | none => exact narrows_unknown _ _

theorem narrows_scalar {v : Json} (notObject : ∀ members, v ≠ .obj members)
    (notList : ∀ items, v ≠ .arr items) :
    Draft.Narrows (ofMember r .reject parent key v) (ofMember r .ignore parent key v) := by
  rw [ofMember.eq_3 r .reject parent key v notObject notList,
    ofMember.eq_3 r .ignore parent key v notObject notList]
  cases Key.of key with
  | junction join => exact .refl _
  | negation => exact .refl _
  | misplaced => exact .refl _
  | name =>
    dsimp only
    cases r.resolve? (Path.child parent key) with
    | some f => exact .refl _
    | none => exact narrows_unknown _ _

mutual
/-- By recursion on the members, as their conditions are composed. -/
theorem narrows_ofMembers : ∀ (members : List (String × Json)) (parent : Option String),
    Draft.Narrows (ofMembers r .reject parent members) (ofMembers r .ignore parent members)
  | [], _ => .refl _
  | (key, value) :: more, parent =>
    (narrows_ofMember value parent key).bind fun _ =>
      (narrows_ofMembers more parent).bind fun _ => .refl _

theorem narrows_ofMember : ∀ (v : Json) (parent : Option String) (key : String),
    Draft.Narrows (ofMember r .reject parent key v) (ofMember r .ignore parent key v)
  | .obj members, _, _ => narrows_object (narrows_ofMembers members)
  | .arr items, _, _ => narrows_array (narrows_ofFilters items)
  | .null, _, _ | .bool _, _, _ | .num _, _, _ | .str _, _, _ => narrows_scalar nofun nofun

theorem narrows_ofFilters : ∀ (items : List Json) (op : String),
    Draft.Narrows (ofFilters r .reject op items) (ofFilters r .ignore op items)
  | [], _ => .refl _
  | .obj members :: more, op =>
    (narrows_ofMembers members none).bind fun _ =>
      (narrows_ofFilters more op).bind fun _ => .refl _
  | .null :: _, _ | .bool _ :: _, _ | .num _ :: _, _ | .str _ :: _, _ | .arr _ :: _, _ => .refl _
end

theorem narrows_ofFilter (filter : Filter) :
    Draft.Narrows (ofFilter r .reject filter) (ofFilter r .ignore filter) :=
  narrows_ofMembers filter.members none

end Condition

/-! ## Columns, orders and values -/

namespace Clause

theorem narrows_lookUp (name : String) :
    Narrows (lookUp r .reject name) (lookUp r .ignore name) := by
  unfold lookUp
  cases r.resolve? name with
  | some f => exact .refl _
  | none => exact FieldPolicy.narrows_unknown name _ _

theorem narrows_select (names : List String) :
    Narrows (select r .reject names) (select r .ignore names) := by
  have projected : Narrows (projection r .reject names) (projection r .ignore names) :=
    (Narrows.mapM narrows_lookUp names).bind fun _ => .refl _
  exact projected.bind fun _ => .refl _

theorem narrows_sortTerm (token : String) :
    Narrows (sortTerm r .reject token) (sortTerm r .ignore token) := by
  unfold sortTerm
  split
  · exact .refl _
  · exact (narrows_lookUp _).map _

theorem narrows_orderBy (tokens : List String) :
    Narrows (orderBy r .reject tokens) (orderBy r .ignore tokens) := by
  have ordered : Narrows (ordering r .reject tokens) (ordering r .ignore tokens) :=
    (Narrows.mapM narrows_sortTerm tokens).bind fun _ => .refl _
  exact ordered.bind fun _ => .refl _

/-- The strict policy reads a record once more than the lenient one, before its values. -/
theorem narrows_checkRecord (record : Record) :
    Narrows (checkRecord r .reject record) (checkRecord r .ignore record) := by
  have names : Narrows (checkNames r .reject record) (checkNames r .ignore record) := by
    unfold checkNames
    cases record.flatten.keys.find? fun key => (r.get? key).isNone with
    | none => exact .refl _
    | some key => exact .refused key _
  exact names.bind fun _ => .refl _

theorem narrows_insertion (records : List Record) :
    Draft.Narrows (insertion r .reject records) (insertion r .ignore records) := by
  rw [insertion_eq, insertion_eq]
  split
  · exact .refl _
  · exact (Draft.Narrows.ofExcept (.forM narrows_checkRecord records)).bind fun _ => .refl _

theorem narrows_assignment (leaf : String × Json) :
    Draft.Narrows (assignment r .reject leaf.1 leaf.2) (assignment r .ignore leaf.1 leaf.2) := by
  unfold assignment
  cases r.get? leaf.1 with
  | some f => exact .refl _
  | none => exact .ofExcept (FieldPolicy.narrows_unknown leaf.1 _ _)

theorem narrows_assignments (record : Record) :
    Draft.Narrows (assignments r .reject record) (assignments r .ignore record) :=
  (Draft.Narrows.mapM narrows_assignment record.flatten).bind fun _ => .refl _

end Clause

/-! ## Clauses by request -/

/-- What a clause is composed from. -/
inductive ClauseRequest where
  | select (names : List String)
  | order (tokens : List String)
  | condition (filter : Filter)
  | insertion (records : List Record)
  | assignments (record : Record)

namespace ClauseRequest

/-- The clause of a request; none when it asks for nothing. -/
def draft (r : Registry) (policy : FieldPolicy) : ClauseRequest → Draft (Option Fragment)
  | .select names => .ofExcept (Clause.select r policy names)
  | .order tokens => .ofExcept (Clause.orderBy r policy tokens)
  | .condition filter => Condition.conjunctionFragment <$> Condition.ofFilter r policy filter
  | .insertion records => some <$> Clause.insertion r policy records
  | .assignments record => some <$> Clause.assignments r policy record

theorem draft_narrows (r : Registry) (q : ClauseRequest) :
    Draft.Narrows (q.draft r .reject) (q.draft r .ignore) := by
  cases q with
  | select names => exact .ofExcept (Clause.narrows_select names)
  | order tokens => exact .ofExcept (Clause.narrows_orderBy tokens)
  | condition filter => exact (Condition.narrows_ofFilter filter).map _
  | insertion records => exact (Clause.narrows_insertion records).map _
  | assignments record => exact (Clause.narrows_assignments record).map _

end ClauseRequest

namespace Clause.Session

/-- The text of a clause and the session after it, when there is one. -/
def composed (s : Session) (d : Draft (Option Fragment)) :
    Except Error (Option String × Session) :=
  (s.add d).1.map fun text => (text, (s.add d).2)

theorem composed_narrows (s : Session) {strict lenient : Draft (Option Fragment)}
    (h : strict.Narrows lenient) : Narrows (s.composed strict) (s.composed lenient) := by
  rcases h with rfl | ⟨name, refused⟩
  · exact .refl _
  · refine .inr ⟨name, ?_⟩
    rw [composed, add, refused]
    rfl

end Clause.Session
end DocTable
