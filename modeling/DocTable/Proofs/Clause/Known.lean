import DocTable.Clause.Session
import DocTable.Proofs.Condition.Reached
import DocTable.Proofs.Condition.Taken

/-!
# Values given for columns

A filter may name what is no column. When that is passed over, no condition on a column
goes with it (`keeps_known`), but where names stand beside operators below such a name, all
of them are passed over together (`drops_mixed`).
-/

namespace DocTable
set_option autoImplicit false

/-- A value that asks nothing of a column: an object without operators, or with none but to
be outside an empty list. -/
def Json.AsksNothing : Json → Prop
  | .obj operators => ∀ m ∈ operators, m = ("$nin", .arr [])
  | _ => False

namespace Condition

variable {f : Field}

theorem asksNothing_ofOperator {op : String} {operand : Json}
    (ok : (ofOperator f op operand).outcome = .ok []) : (op, operand) = ("$nin", .arr []) := by
  have kind := operatorCase f op operand
  generalize ofOperator f op operand = d at ok kind
  cases kind with
  | refused none => exact absurd ok (none [])
  | compare _ | inside | outside _ | like =>
    obtain ⟨c, _, ok⟩ := Draft.ok_bind.mp ok
    cases ok
  | anything => rfl
  | present | absent => cases ok

theorem asksNothing_ofOperators {operators : List (String × Json)}
    (ok : (ofOperators f operators).outcome = .ok []) :
    ∀ m ∈ operators, m = ("$nin", .arr []) := by
  induction operators with
  | nil => exact List.forall_mem_nil _
  | cons m operators ih =>
    obtain ⟨here, first, ok⟩ := Draft.ok_bind.mp ok
    obtain ⟨rest, others, ok⟩ := Draft.ok_bind.mp ok
    obtain ⟨rfl, rfl⟩ := List.append_eq_nil_iff.mp (Draft.ok_pure.mp ok)
    exact List.forall_mem_cons.mpr ⟨asksNothing_ofOperator first, ih others⟩

/-- Only a value that asks nothing has no condition. -/
theorem asksNothing_ofField {v : Json} (ok : (ofField f v).outcome = .ok []) : v.AsksNothing := by
  cases v with
  | null => cases ok
  | arr items =>
    obtain ⟨c, _, ok⟩ := Draft.ok_bind.mp ok
    cases ok
  | obj members =>
    cases members with
    | nil => exact List.forall_mem_nil _
    | cons m ms =>
      rw [ofField] at ok
      · split at ok
        · exact asksNothing_ofOperators ok
        · cases ok
      · exact List.cons_ne_nil m ms
  | _ =>
    obtain ⟨value, _, ok⟩ := Draft.ok_bind.mp ok
    cases ok

end Condition

namespace Clause

/-- A condition is written in a clause, and the session binds its values at its place. -/
def Shows (s after : Session) (clause : Option String) (c : Condition) : Prop :=
  ∃ front back : Fragment,
    clause = some ((front ++ c.fragment ++ back).text s.style s.bound.length) ∧
    after.bound = s.bound ++ (front ++ c.fragment ++ back).bound s.style

/-- A clause has all conditions of a value for a column, and there are some unless the value
asks nothing. -/
def Keeps (s after : Session) (clause : Option String) (f : Field) (v : Json) : Prop :=
  ∃ parts, (Condition.ofField f v).outcome = .ok parts ∧
    (∀ c ∈ parts, Shows s after clause c) ∧ (parts = [] → v.AsksNothing)

variable {r : Registry} {policy : FieldPolicy} {filter : Filter}

/-- What is composed for a filter is written, and its operands are bound. -/
theorem shows_of_held {s after : Session} {clause : Option String} {cs : List Condition}
    {c : Condition} (composed : (Condition.ofFilter r policy filter).outcome = .ok cs)
    (added : s.add (Condition.conjunctionFragment <$> Condition.ofFilter r policy filter) =
      (.ok clause, after)) (held : c.Held cs) : Shows s after clause c := by
  obtain ⟨text, rfl⟩ := Prod.mk.inj added
  rw [Draft.outcome_map, composed] at text
  have some : cs ≠ [] := List.ne_nil_of_mem held.choose_spec.1
  have fragment : Condition.conjunctionFragment cs =
      Option.some (Fragment.separatedBy " AND " (Condition.fragments cs)) := by
    simp [Condition.conjunctionFragment, some]
  obtain ⟨front, back, whole⟩ := held.separatedBy " AND "
  refine ⟨front, back, ?_, ?_⟩
  · rw [whole, ← Except.ok.inj text, fragment]
    rfl
  · rw [whole, Fragment.bound_eq_filter, Condition.operands_conjunction,
      ← Condition.takes_ofMembers none filter.members cs composed, Draft.taken_map,
      Session.pushAll_eq]
    rfl

/-- **Values given for columns count.** What a filter gives for a column, below names that
stand beside no operator, is part of its clause. -/
theorem keeps_known (s after : Session) (r : Registry) (policy : FieldPolicy) (filter : Filter)
    (clause : Option String) (path : String) (v : Json) (f : Field)
    (added : s.add (Condition.conjunctionFragment <$> Condition.ofFilter r policy filter) =
      (.ok clause, after))
    (reached : Condition.Reaches (fun inner => Condition.hasOperator inner = false) filter.members
      none path v)
    (known : r.resolve? path = some f) : Keeps s after clause f v := by
  have composed : ∃ cs, (Condition.ofFilter r policy filter).outcome = .ok cs := by
    have text := congrArg Prod.fst added
    rw [Session.add, Draft.outcome_map] at text
    cases outcome : (Condition.ofFilter r policy filter).outcome with
    | error e =>
      rw [outcome] at text
      cases text
    | ok cs => exact ⟨cs, rfl⟩
  obtain ⟨cs, composed⟩ := composed
  obtain ⟨parts, given, held⟩ := Condition.held_of_reaches reached known composed
  refine ⟨parts, given, fun c hc => shows_of_held composed added (held c hc), ?_⟩
  rintro rfl
  exact Condition.asksNothing_ofField given

/-- The city of an address, and a table with no other column. -/
def city : Field := ⟨"address___city", "address.city", .text, false, false, false, none⟩

def people : Registry := ⟨[city]⟩

theorem keeps_known_city :
    Keeps (.start .postgres false) ⟨.of .postgres false, [.text "Pune"]⟩
      (some "NOT (\"address___city\" = $1)") city (.str "Pune") := by
  refine keeps_known _ _ people .ignore
    ⟨[("$not", .obj [("address", .obj [("street", .null), ("city", .str "Pune")])])]⟩
    _ "address.city" _ _ (by decide +kernel) ?_ (by decide +kernel)
  exact .negation List.mem_cons_self (.under List.mem_cons_self (by decide) (by decide)
    (.here (List.mem_cons_of_mem _ List.mem_cons_self) (by decide)))

/-- With an operator beside it, the name of a column is passed over. -/
theorem drops_mixed :
    ¬ ∀ clause after,
      (Session.start .postgres false).add (Condition.conjunctionFragment <$>
        Condition.ofFilter people .ignore
          ⟨[("address", .obj [("city", .str "Pune"), ("$eq", .str "x")])]⟩) = (.ok clause, after) →
      ∀ path v f,
        Condition.Reaches (fun _ => True)
          [("address", .obj [("city", .str "Pune"), ("$eq", .str "x")])] none path v →
        people.resolve? path = some f → Keeps (Session.start .postgres false) after clause f v := by
  intro keeps
  have kept := keeps none (Session.start .postgres false) (by decide +kernel) "address.city"
    (.str "Pune") city
    (.under (List.mem_singleton_self _) (by decide) trivial (.here List.mem_cons_self (by decide)))
    (by decide +kernel)
  obtain ⟨parts, given, shows, nothing⟩ := kept
  cases parts with
  | nil => exact nothing rfl
  | cons c parts =>
    obtain ⟨front, back, written, bound⟩ := shows c List.mem_cons_self
    cases written

end Clause
end DocTable
