import DocTable.Proofs.Condition.OfFilter
import DocTable.Proofs.Condition.Sited
import DocTable.Proofs.Statement.Taken

/-!
# The operands that a filter takes

What is taken while a filter is composed are the operands of its conditions, in their
order (`takes_ofMembers`).
-/

namespace DocTable
set_option autoImplicit false

namespace Condition

variable {r : Registry} {policy : FieldPolicy} {f : Field}

/-- The operands of conditions, from left to right. -/
def operands (cs : List Condition) : List SqlValue := (sitesEach cs).flatten.map Prod.snd

theorem operands_append (cs ds : List Condition) :
    operands (cs ++ ds) = operands cs ++ operands ds := by
  induction cs with
  | nil => rfl
  | cons c cs ih =>
    simp only [operands, List.cons_append, sitesEach, List.flatten_cons, List.map_append,
      List.append_assoc] at ih ⊢
    rw [ih]

/-- A group has the operands of its parts. -/
theorem operands_group {join : List Condition → Condition}
    (parts : ∀ cs, (join cs).sites = (sitesEach cs).flatten) (cs : List Condition) :
    operands (group join cs) = operands cs := by
  unfold group
  split
  · rfl
  · rfl
  · simp [operands, sitesEach, parts]

/-- The operands of conditions are those of their fragment. -/
theorem operands_conjunction (cs : List Condition) :
    Fragment.operands (Fragment.separatedBy " AND " (fragments cs)) = operands cs := by
  rw [operands, ← (sited_conjunction .mysql cs).sites "", Fragment.map_snd_sites]

/-! ## One field -/

theorem takes_listValues (items : List Json) : (listValues f items).Takes id := by
  induction items with
  | nil => exact .pure rfl
  | cons item items ih =>
    cases item with
    | arr _ | obj _ => exact fun _ ok => by cases ok
    | _ => exact .both (.takeFor f _) ih fun _ _ => rfl

theorem takes_ofList (negated : Bool) (items : List Json) :
    (ofList f negated items).Takes fun c => operands [c] := by
  cases items with
  | nil => exact .pure rfl
  | cons item items =>
    refine .map (takes_listValues (item :: items)) ?_
    intro values
    simp [operands, sitesEach, sites, Function.comp_def]

theorem takes_ofComparison (op : String) (comparison : Comparison) (v : Json) :
    (ofComparison f op comparison v).Takes fun c => operands [c] := by
  cases v with
  | null =>
    cases comparison with
    | equal | notEqual => exact .pure rfl
    | _ => exact fun _ ok => by cases ok
  | arr _ | obj _ => exact fun _ ok => by cases ok
  | _ => exact .map (.takeFor f _) fun _ => rfl

theorem takes_ofLike (v : Json) : (ofLike f v).Takes fun c => operands [c] := by
  cases v with
  | str pattern =>
    rw [ofLike]
    split
    · exact .map (.take _) fun _ => rfl
    · exact fun _ ok => by cases ok
  | _ => exact fun _ ok => by cases ok

theorem takes_ofOperator (op : String) (operand : Json) :
    (ofOperator f op operand).Takes operands := by
  have kind := operatorCase f op operand
  generalize ofOperator f op operand = d at kind
  cases kind with
  | refused none => exact fun cs ok => absurd ok (none cs)
  | compare _ => exact .map (takes_ofComparison op _ operand) fun _ => rfl
  | inside | outside _ => exact .map (takes_ofList _ _) fun _ => rfl
  | like => exact .map (takes_ofLike operand) fun _ => rfl
  | anything | present | absent => exact .pure rfl

theorem takes_ofOperators (operators : List (String × Json)) :
    (ofOperators f operators).Takes operands := by
  induction operators with
  | nil => exact .pure rfl
  | cons m operators ih => exact .both (takes_ofOperator m.1 m.2) ih operands_append

theorem takes_ofField (v : Json) : (ofField f v).Takes operands := by
  cases v with
  | null => exact .pure rfl
  | arr items => exact .map (takes_ofList false items) fun _ => rfl
  | obj members =>
    cases members with
    | nil => exact .pure rfl
    | cons m ms =>
      rw [ofField]
      · split
        · exact takes_ofOperators _
        · exact fun _ ok => by cases ok
      · exact List.cons_ne_nil m ms
  | _ => exact .map (.takeFor f _) fun _ => rfl

/-! ## Whole filters -/

theorem takes_unknown (path : String) : (unknown policy path).Takes operands := by
  intro cs ok
  obtain rfl := nil_of_unknown ok
  rfl

/-- What a member takes, given what is taken below it. -/
theorem takes_below {parent : Option String} {key : String} {v : Json}
    (members : ∀ {ms parent}, v = .obj ms → (ofMembers r policy parent ms).Takes operands)
    (filters : ∀ {items op}, v = .arr items → (ofFilters r policy op items).Takes operands) :
    (ofMember r policy parent key v).Takes operands := by
  have kind := memberCase r policy parent key v
  generalize ofMember r policy parent key v = d at kind
  cases kind with
  | refused none => exact fun cs ok => absurd ok (none cs)
  | and | or => exact .map (filters rfl) (operands_group fun _ => rfl)
  | negation =>
    refine .map (members rfl) ?_
    intro parts
    cases parts <;> simp [operands, sitesEach, sites]
  | column _ _ => exact takes_ofField v
  | names _ _ _ => exact members rfl
  | unknown _ _ _ => exact takes_unknown _

mutual
/-- By recursion on the members, as their conditions are composed. -/
theorem takes_ofMembers (parent : Option String) :
    ∀ members : List (String × Json), (ofMembers r policy parent members).Takes operands
  | [] => .pure rfl
  | (key, value) :: more =>
    .both (takes_ofMember parent key value) (takes_ofMembers parent more) operands_append

theorem takes_ofMember (parent : Option String) (key : String) :
    ∀ value : Json, (ofMember r policy parent key value).Takes operands
  | .obj _ => takes_below (fun same => by cases same; exact takes_ofMembers _ _) nofun
  | .arr _ => takes_below nofun (fun same => by cases same; exact takes_ofFilters _ _)
  | .null | .bool _ | .num _ | .str _ => takes_below nofun nofun

theorem takes_ofFilters (op : String) :
    ∀ items : List Json, (ofFilters r policy op items).Takes operands
  | [] => .pure rfl
  | .obj members :: more =>
    .both (takes_ofMembers none members) (takes_ofFilters op more) fun parts rest => by
      rw [operands_append, operands_group fun _ => rfl]
  | .null :: _ | .bool _ :: _ | .num _ :: _ | .str _ :: _ | .arr _ :: _ =>
    fun _ ok => by cases ok
end

end Condition
end DocTable
