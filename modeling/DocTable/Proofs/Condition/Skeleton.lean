import DocTable.Proofs.Condition.OfFilter
import DocTable.Proofs.Json.Skeleton
import DocTable.Proofs.Predicate.Masked

/-!
# The conditions of a filter's skeleton

An accepted filter states the predicates of its skeleton, but for the values that are not null
(`masked_ofMembers`). So two accepted filters with one skeleton are written alike
(`masked_conditions`).
-/

namespace DocTable
set_option autoImplicit false

/-- The skeleton of what stands under a key of a filter. -/
def Filter.under (key : String) (v : Json) : Json :=
  if keeps key then v else v.skeleton keeps

theorem Json.masked_skeleton (keeps : String → Bool) (v : Json) :
    (v.skeleton keeps).masked = v.masked := by
  rw [masked, masked, isNull_skeleton]

namespace Predicate

/-- Predicates that are the same once their values are masked. -/
def Alike (ps qs : List (Predicate Given)) : Prop :=
  mapAll Given.masked ps = mapAll Given.masked qs

namespace Alike

theorem append {ps qs ps' qs' : List (Predicate Given)} (first : Alike ps ps')
    (others : Alike qs qs') : Alike (ps ++ qs) (ps' ++ qs') := by
  rw [Alike, mapAll_append, mapAll_append, first, others]

/-- Neither node has parts where the other has none. -/
theorem node {join : List (Predicate Given) → Predicate Given} {ps qs : List (Predicate Given)}
    (alike : Alike ps qs) (joins : (join ps).map Given.masked = (join qs).map Given.masked) :
    Alike (node join ps) (node join qs) := by
  cases ps with
  | nil =>
    cases qs with
    | nil => rfl
    | cons q qs => cases alike
  | cons p ps =>
    cases qs with
    | nil => cases alike
    | cons q qs => exact congrArg (fun joined => [joined]) joins

theorem all {ps qs : List (Predicate Given)} (alike : Alike ps qs) :
    Alike (Predicate.node .all ps) (Predicate.node .all qs) :=
  alike.node (congrArg Predicate.all alike)

theorem any {ps qs : List (Predicate Given)} (alike : Alike ps qs) :
    Alike (Predicate.node .any ps) (Predicate.node .any qs) :=
  alike.node (congrArg Predicate.any alike)

theorem negation {ps qs : List (Predicate Given)} (alike : Alike ps qs) :
    Alike (Predicate.node (fun parts => .not (.all parts)) ps)
      (Predicate.node (fun parts => .not (.all parts)) qs) :=
  alike.node (congrArg (fun parts => Predicate.not (.all parts)) alike)

end Alike

/-! ## One field -/

variable {f : Field}

theorem alike_isIn (negated : Bool) (items : List Json) :
    Alike [.isIn f.key negated ((Json.skeletonItems Filter.keeps items).map (Given.mk f))]
      [.isIn f.key negated (items.map (Given.mk f))] := by
  simp [Alike, mapAll, map, Json.skeletonItems_eq_map, Given.masked, Function.comp_def,
    Json.masked_skeleton]

/-- A comparison with null is kept, and any other one is a comparison still. -/
theorem alike_ofComparison (comparison : Comparison) (v : Json) :
    Alike (ofComparison f comparison (v.skeleton Filter.keeps))
      (ofComparison f comparison v) := by
  cases v <;> cases comparison <;> rfl

end Predicate

namespace Condition
open Predicate (Alike)

variable {r : Registry} {policy : FieldPolicy} {f : Field}

theorem keeps_of_comparison {op : String} {comparison : Comparison}
    (known : comparison? op = some comparison) : Filter.keeps op = false := by
  cases kept : Filter.keeps op with
  | false => rfl
  | true =>
    obtain rfl : op = "$exists" := by simpa [Filter.keeps] using kept
    cases known

theorem keeps_of_name {key : String} (name : isOperator key = false) :
    Filter.keeps key = false := by
  cases kept : Filter.keeps key with
  | false => rfl
  | true =>
    obtain rfl : key = "$exists" := by simpa [Filter.keeps] using kept
    cases name

theorem masked_ofOperator {op : String} {operand : Json} {cs : List Condition}
    (ok : (ofOperator f op operand).outcome = .ok cs) :
    Alike (Predicate.ofOperator f op (Filter.under op operand))
      (Predicate.ofOperator f op operand) := by
  have kind := operatorCase f op operand
  generalize ofOperator f op operand = d at ok kind
  cases kind with
  | refused none => exact absurd ok (none cs)
  | @compare _ comparison _ known =>
    have kept := keeps_of_comparison known
    rw [comparison?_eq_lookup] at known
    have states (v : Json) :
        Predicate.ofOperator f op v = Predicate.ofComparison f comparison v := by
      unfold Predicate.ofOperator
      rw [known]
    rw [Filter.under, kept, states, states]
    exact Predicate.alike_ofComparison comparison operand
  | @inside items => exact Predicate.alike_isIn false items
  | anything => rfl
  | @outside items some =>
    cases items with
    | nil => exact absurd rfl some
    | cons item items => exact Predicate.alike_isIn true (item :: items)
  | like =>
    obtain ⟨c, composed, -⟩ := Draft.ok_return.mp ok
    obtain ⟨pattern, rfl, -⟩ := compiled_ofLike composed
    rfl
  | present | absent => rfl

theorem masked_ofOperators {operators : List (String × Json)} {cs : List Condition}
    (ok : (ofOperators f operators).outcome = .ok cs) :
    Alike ((Json.skeletonMembers Filter.keeps operators).flatMap
        fun m => Predicate.ofOperator f m.1 m.2)
      (operators.flatMap fun m => Predicate.ofOperator f m.1 m.2) := by
  induction operators generalizing cs with
  | nil => rfl
  | cons m operators ih =>
    obtain ⟨here, first, ok⟩ := Draft.ok_bind.mp ok
    obtain ⟨rest, others, -⟩ := Draft.ok_return.mp ok
    exact (masked_ofOperator first).append (ih others)

theorem masked_ofField {v : Json} {cs : List Condition} (ok : (ofField f v).outcome = .ok cs) :
    Alike (Predicate.ofValue f (v.skeleton Filter.keeps)) (Predicate.ofValue f v) := by
  cases v with
  | arr items => exact Predicate.alike_isIn false items
  | obj members =>
    cases members with
    | nil => rfl
    | cons m ms =>
      rw [ofField] at ok
      · split at ok
        · exact masked_ofOperators ok
        · cases ok
      · exact List.cons_ne_nil m ms
  | null | bool _ | num _ | str _ => rfl

/-! ## Whole filters -/

theorem hasOperator_skeleton (members : Json.Members) :
    hasOperator (Json.skeletonMembers Filter.keeps members) = hasOperator members := by
  have keys (ms : Json.Members) : hasOperator ms = (ms.map Prod.fst).any isOperator := by
    rw [hasOperator, List.any_map]
    rfl
  rw [keys, keys, Json.keys_skeletonMembers]

/-- A member and its skeleton, given what is below them. -/
theorem masked_below {parent : Option String} {key : String} {v : Json} {cs : List Condition}
    (members : ∀ {ms parent cs}, v = .obj ms → (ofMembers r policy parent ms).outcome = .ok cs →
      Alike (Predicate.ofMembers r parent (Json.skeletonMembers Filter.keeps ms))
        (Predicate.ofMembers r parent ms))
    (filters : ∀ {items op cs}, v = .arr items → (ofFilters r policy op items).outcome = .ok cs →
      Alike (Predicate.ofFilters r (Json.skeletonItems Filter.keeps items))
        (Predicate.ofFilters r items))
    (ok : (ofMember r policy parent key v).outcome = .ok cs) :
    Alike (Predicate.ofMember r parent key (Filter.under key v))
      (Predicate.ofMember r parent key v) := by
  have kind := memberCase r policy parent key v
  generalize ofMember r policy parent key v = d at ok kind
  cases kind with
  | refused none => exact absurd ok (none cs)
  | and =>
    obtain ⟨parts, composed, -⟩ := Draft.ok_return.mp ok
    exact (filters rfl composed).all
  | or =>
    obtain ⟨parts, composed, -⟩ := Draft.ok_return.mp ok
    exact (filters rfl composed).any
  | negation =>
    obtain ⟨parts, composed, -⟩ := Draft.ok_return.mp ok
    exact (members rfl composed).negation
  | column name found =>
    rw [Filter.under, keeps_of_name name, Predicate.ofMember_name name,
      Predicate.ofMember_name name, found]
    exact masked_ofField ok
  | names name found names =>
    rw [Filter.under, keeps_of_name name, Predicate.ofMember_name name,
      Predicate.ofMember_name name, found]
    simp only [Bool.false_eq_true, if_false, Json.skeleton, hasOperator_skeleton, names]
    exact members rfl ok
  | unknown name found operators =>
    rw [Filter.under, keeps_of_name name, Predicate.ofMember_name name,
      Predicate.ofMember_name name, found]
    cases v with
    | obj inner =>
      simp only [Bool.false_eq_true, if_false, Json.skeleton, hasOperator_skeleton,
        operators inner rfl, if_true]
      rfl
    | _ => rfl

mutual
/-- By recursion on the members of an accepted filter, as its conditions are composed. -/
theorem masked_ofMembers {parent : Option String} :
    ∀ {members : List (String × Json)} {cs : List Condition},
      (ofMembers r policy parent members).outcome = .ok cs →
        Alike (Predicate.ofMembers r parent (Json.skeletonMembers Filter.keeps members))
          (Predicate.ofMembers r parent members)
  | [], _, _ => rfl
  | (key, value) :: more, cs, ok => by
    obtain ⟨here, first, ok⟩ := Draft.ok_bind.mp ok
    obtain ⟨rest, others, -⟩ := Draft.ok_return.mp ok
    exact (masked_ofMember first).append (masked_ofMembers others)

theorem masked_ofMember {parent : Option String} {key : String} :
    ∀ {value : Json} {cs : List Condition},
      (ofMember r policy parent key value).outcome = .ok cs →
        Alike (Predicate.ofMember r parent key (Filter.under key value))
          (Predicate.ofMember r parent key value)
  | .obj _, _, ok => masked_below (fun same => by cases same; exact masked_ofMembers) nofun ok
  | .arr _, _, ok => masked_below nofun (fun same => by cases same; exact masked_ofFilters) ok
  | .null, _, ok | .bool _, _, ok | .num _, _, ok | .str _, _, ok => masked_below nofun nofun ok

theorem masked_ofFilters {op : String} :
    ∀ {items : List Json} {cs : List Condition},
      (ofFilters r policy op items).outcome = .ok cs →
        Alike (Predicate.ofFilters r (Json.skeletonItems Filter.keeps items))
          (Predicate.ofFilters r items)
  | [], _, _ => rfl
  | .obj members :: more, cs, ok => by
    obtain ⟨parts, first, ok⟩ := Draft.ok_bind.mp ok
    obtain ⟨rest, others, -⟩ := Draft.ok_return.mp ok
    exact (masked_ofMembers first).all.append (masked_ofFilters others)
  | .null :: _, _, ok | .bool _ :: _, _, ok | .num _ :: _, _, ok | .str _ :: _, _, ok
  | .arr _ :: _, _, ok => by cases ok
end

/-- Accepted filters with one skeleton are written alike. -/
theorem masked_conditions {filter other : Filter} (same : filter.skeleton = other.skeleton)
    {cs ds : List Condition} (ok : (ofFilter r policy filter).outcome = .ok cs)
    (ok' : (ofFilter r policy other).outcome = .ok ds) :
    (fragments cs).map Fragment.masked = (fragments ds).map Fragment.masked := by
  have alike : Alike (Predicate.ofMembers r none filter.skeleton)
      (Predicate.ofMembers r none filter.members) := masked_ofMembers ok
  have alike' : Alike (Predicate.ofMembers r none other.skeleton)
      (Predicate.ofMembers r none other.members) := masked_ofMembers ok'
  rw [(compiled_ofMembers ok).masked_fragments, (compiled_ofMembers ok').masked_fragments,
    ← alike, ← alike', same]

end Condition
end DocTable
