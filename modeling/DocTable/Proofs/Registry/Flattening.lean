import DocTable.Proofs.Registry.OfSchema
import DocTable.Proofs.Registry.Reference
import Mathlib.Data.List.Forall2

/-!
# Registries are the leaves of their schemas

A registry is built exactly when its schema describes a table, and then its columns are the
leaves of the schema in their order (`Registry.ofSchema_reference`).
-/

namespace DocTable
set_option autoImplicit false

namespace Schema

/-! ## Levels below some names -/

/-- A level is read at its first member named `properties`. -/
theorem level_eq (parent : Option String) (whole : Json.Members) (members : Json.Members) :
    level parent whole members =
      match members.get? "properties" with
      | none => .error (.noProperties (locationName parent))
      | some (.obj properties) => do
        let names ← required parent whole
        propertyColumns parent names properties
      | some _ => .error (.propertiesNotObject (locationName parent)) := by
  induction members with
  | nil => rw [level, Json.Members.get?]
  | cons m members ih =>
    obtain ⟨key, v⟩ := m
    rw [Json.Members.get?]
    by_cases same : key = "properties"
    · rw [if_pos same]
      cases v <;> simp [level, same]
    · rw [if_neg same, ← ih]
      cases v <;> simp [level, same]

/-- Every level from one on is in order. -/
def Levels (above : List String) (level : Json.Members) : Prop :=
  ∀ around inner, Reached above level around inner → LevelOk around inner

/-- A property is in order, and so are the levels that it leads to. -/
structure PropertySound (above : List String) (m : String × Json) : Prop where
  ok : PropertyOk m.1 m.2
  levels : ∀ property, m.2 = .obj property → IsLevel property → Levels (above ++ [m.1]) property

variable {above : List String} {level : Json.Members}

theorem levels_iff : Levels above level ↔
    (∃ properties, level.get? "properties" = some (.obj properties)) ∧
    (∃ names : List String, level.get? "required" = some (.arr (names.map .str))) ∧
    ∀ m ∈ readProperties above level, PropertySound above m := by
  constructor
  · intro h
    obtain ⟨properties, required, each⟩ := h _ _ .here
    refine ⟨properties, required, fun m mem => ⟨each m mem, ?_⟩⟩
    rintro property object isLevel around inner reached
    refine h around inner (.inside ?_ isLevel reached)
    rwa [← object]
  · rintro ⟨properties, required, each⟩ around inner reached
    cases reached with
    | here => exact ⟨properties, required, fun m mem => (each m mem).ok⟩
    | inside mem isLevel reached => exact (each _ mem).levels _ rfl isLevel _ _ reached

/-! ## Paths -/

/-- The path of some names; none at the root. -/
def pathOf : List String → Option String
  | [] => none
  | name :: more => some (".".intercalate (name :: more))

theorem child_pathOf (above : List String) (name : String) :
    Path.child (pathOf above) name = ".".intercalate (above ++ [name]) := by
  cases above with
  | nil => rw [pathOf, Path.child, List.nil_append, String.intercalate_singleton]
  | cons first more =>
    rw [pathOf, Path.child, String.intercalate_append_of_ne_nil (List.cons_ne_nil _ _)
      (List.cons_ne_nil _ _), String.intercalate_singleton]

theorem pathOf_append (above : List String) (name : String) :
    pathOf (above ++ [name]) = some (Path.child (pathOf above) name) := by
  rw [child_pathOf]
  cases above <;> rfl

theorem isNone_pathOf (above : List String) : (pathOf above).isNone = above.isEmpty := by
  cases above <;> rfl

/-! ## Collecting columns -/

/-- What is collected: columns for some leaves, or a failure when something is not in order. -/
inductive Collects (sound : Prop) (ls : List Leaf) : Except SchemaError (List Field) → Prop where
  | ok {fs : List Field} : sound → List.Forall₂ Leaf.IsColumn ls fs → Collects sound ls (.ok fs)
  | error {cause : SchemaError} : ¬ sound → Collects sound ls (.error cause)

namespace Collects

variable {sound sound' : Prop} {ls ls' : List Leaf} {x y : Except SchemaError (List Field)}

theorem congr (h : Collects sound ls x) (same : sound' ↔ sound) : Collects sound' ls x := by
  rwa [propext same]

theorem append (h : Collects sound ls x) (h' : Collects sound' ls' y) :
    Collects (sound ∧ sound') (ls ++ ls') (do
      let here ← x
      let rest ← y
      .ok (here ++ rest)) := by
  cases h with
  | error unsound => exact .error fun both => unsound both.1
  | ok first columns =>
    cases h' with
    | error unsound => exact .error fun both => unsound both.2
    | ok others more => exact .ok ⟨first, others⟩ (List.rel_append columns more)

end Collects

/-! ## Leaves -/

theorem stringMember?_eq_some_iff {key s : String} {members : Json.Members} :
    stringMember? key members = some s ↔ members.get? key = some (.str s) := by
  unfold stringMember?
  split <;> simp_all

theorem isBinary_iff {property : Json.Members} : isBinary property = true ↔ IsBinary property := by
  rw [isBinary, Bool.or_eq_true, beq_iff_eq, stringMember?_eq_some_iff, Option.isSome_iff_exists,
    IsBinary]

theorem boolMember?_eq_some_iff {key : String} {b : Bool} {members : Json.Members} :
    boolMember? key members = some b ↔ members.get? key = some (.bool b) := by
  unfold boolMember?
  cases members.get? key with
  | none => simp
  | some v => cases v <;> simp

theorem names?_eq_some_iff {items : List Json} {names : List String} :
    names? items = some names ↔ items = names.map .str := by
  unfold names?
  induction items generalizing names with
  | nil => cases names <;> simp
  | cons item items ih =>
    cases item with
    | str s =>
      simp only [List.mapM_cons, Option.bind_eq_bind, Option.bind_some, Option.pure_def,
        Option.bind_eq_some_iff, Option.some.injEq]
      constructor
      · rintro ⟨rest, others, rfl⟩
        rw [List.map_cons, ← ih.mp others]
      · intro same
        cases names with
        | nil => cases same
        | cons name names =>
          obtain ⟨first, others⟩ := List.cons.inj same
          exact ⟨names, ih.mpr others, by rw [Json.str.inj first]⟩
    | _ => cases names <;> simp [List.mapM_cons]

theorem hasType_of_columnType? {type : String} {property : Json.Members} {t : ColumnType}
    (typed : property.get? "type" = some (.str type)) (h : columnType? type property = some t) :
    HasType property t ∧ type ∈ supportedTypes := by
  unfold columnType? at h
  split at h
  · obtain rfl := Option.some.inj h
    by_cases binary : isBinary property = true
    · rw [if_pos binary]
      exact ⟨.blob typed (isBinary_iff.mp binary), by decide⟩
    · rw [if_neg binary]
      exact ⟨.text typed (mt isBinary_iff.mpr binary), by decide⟩
  · obtain rfl := Option.some.inj h
    exact ⟨.double typed, by decide⟩
  · obtain rfl := Option.some.inj h
    exact ⟨.number typed, by decide⟩
  · obtain rfl := Option.some.inj h
    exact ⟨.boolean typed, by decide⟩
  · cases h

theorem not_mem_supportedTypes {type : String} {property : Json.Members}
    (notLevel : type ≠ "object") (none : columnType? type property = none) :
    type ∉ supportedTypes := by
  intro supported
  simp only [supportedTypes, List.mem_cons, List.not_mem_nil, or_false] at supported
  rcases supported with rfl | rfl | rfl | rfl | rfl
  · exact notLevel rfl
  all_goals cases none

theorem maxLength?_eq_some_iff {type : ColumnType} {property : Json.Members} {n : Nat} :
    maxLength? type property = some n ↔ type = .text ∧ n ≤ Bounds.maxUInt32 ∧
      ∃ number, property.get? "maxLength" = some (.num number) ∧ number.toUInt64? = some n := by
  unfold maxLength?
  split
  · rename_i number found
    rw [found]
    simp [Option.filter_eq_some_iff, and_comm]
  · rename_i other
    refine iff_of_false nofun ?_
    rintro ⟨rfl, -, number, found, -⟩
    exact other number rfl found

/-- The column of a leaf is collected when its type is supported. -/
theorem collects_leaf {name type : String} {property : Json.Members} {names : List String}
    (required : level.get? "required" = some (.arr (names.map .str)))
    (typed : property.get? "type" = some (.str type)) (notLevel : type ≠ "object") :
    Collects (type ∈ supportedTypes) [⟨above, name, level, property⟩] (do
      return [← leaf (Path.child (pathOf above) name) (names.contains name) type property]) := by
  unfold leaf
  cases column : columnType? type property with
  | none => exact .error (not_mem_supportedTypes notLevel column)
  | some t =>
    obtain ⟨hasType, supported⟩ := hasType_of_columnType? typed column
    refine .ok supported (.cons ?_ .nil)
    have path : Path.child (pathOf above) name = (Leaf.mk above name level property).path := by
      rw [child_pathOf, Leaf.path]
    constructor
    case path => exact path
    case key => rw [Leaf.key, ← path]
    case type => exact hasType
    case notKey => rfl
    case unique =>
      rw [← boolMember?_eq_some_iff]
      show (boolMember? "unique" property).getD false = true ↔ _
      cases boolMember? "unique" property <;> simp
    case required =>
      show names.contains name = true ↔ _
      simp [required]
    case maxLength => exact fun n => maxLength?_eq_some_iff

/-! ## Levels and their properties -/

/-- A property gives its leaves, when the levels below it do. -/
theorem collects_property {m : String × Json} {names : List String} (undotted : '.' ∉ m.1.toList)
    (required : level.get? "required" = some (.arr (names.map .str)))
    (below : ∀ property, m.2 = .obj property → IsLevel property →
      Collects (Levels (above ++ [m.1]) property) (leaves (above ++ [m.1]) property)
        (Schema.level (pathOf (above ++ [m.1])) property property)) :
    Collects (PropertySound above m) (leavesOfProperty above level m)
      (columnsOfProperty (Path.child (pathOf above) m.1) (names.contains m.1) m.2) := by
  obtain ⟨name, v⟩ := m
  cases v with
  | obj property =>
    rw [columnsOfProperty, typeName, leavesOfProperty]
    cases typed : stringMember? "type" property with
    | none =>
      refine .error fun sound => ?_
      obtain ⟨_, type, ⟨⟩, found, -⟩ := sound.ok.typed
      rw [stringMember?_eq_some_iff.mpr found] at typed
      cases typed
    | some type =>
      rw [stringMember?_eq_some_iff] at typed
      show Collects _ _ (if type = "object" then _ else _)
      have isLevel_iff : IsLevel property ↔ type = "object" := by simp [IsLevel, typed]
      by_cases object : type = "object"
      · have isLevel := isLevel_iff.mpr object
        rw [if_pos object, if_pos isLevel, ← pathOf_append]
        refine (below property rfl isLevel).congr ⟨fun sound => sound.levels _ rfl isLevel, ?_⟩
        refine fun levels => ⟨⟨undotted, property, type, rfl, typed, ?_⟩, ?_⟩
        · rw [object]
          exact List.mem_cons_self
        · rintro _ ⟨⟩ _
          exact levels
      · rw [if_neg object, if_neg (mt isLevel_iff.mp object)]
        refine (collects_leaf required typed object).congr ⟨fun sound => ?_, fun supported => ?_⟩
        · obtain ⟨_, type', ⟨⟩, found, supported⟩ := sound.ok.typed
          cases typed.symm.trans found
          exact supported
        · refine ⟨⟨undotted, property, type, rfl, typed, supported⟩, ?_⟩
          rintro _ ⟨⟩ isLevel
          exact absurd (isLevel_iff.mp isLevel) object
  | _ =>
    refine .error fun sound => ?_
    obtain ⟨_, _, object, -⟩ := sound.ok.typed
    cases object

/-- By induction on the properties of a level. -/
theorem collects_properties (properties : Json.Members) {names : List String}
    (required : level.get? "required" = some (.arr (names.map .str)))
    (below : ∀ m ∈ properties, ∀ property, m.2 = .obj property → IsLevel property →
      Collects (Levels (above ++ [m.1]) property) (leaves (above ++ [m.1]) property)
        (Schema.level (pathOf (above ++ [m.1])) property property)) :
    Collects
      (∀ m ∈ properties.filter fun m => !(above.isEmpty && m.1 == Field.primaryKeyName),
        PropertySound above m)
      ((properties.filter fun m => !(above.isEmpty && m.1 == Field.primaryKeyName)).flatMap
        (leavesOfProperty above level))
      (propertyColumns (pathOf above) names properties) := by
  induction properties with
  | nil => exact .ok (List.forall_mem_nil _) .nil
  | cons m properties ih =>
    obtain ⟨here, others⟩ := List.forall_mem_cons.mp below
    have rest := ih others
    obtain ⟨name, v⟩ := m
    rw [propertyColumns, isNone_pathOf]
    cases skipped : above.isEmpty && name == Field.primaryKeyName with
    | true =>
      rw [List.filter_cons_of_neg (by simp [skipped]), if_pos rfl]
      exact rest
    | false =>
      rw [List.filter_cons_of_pos (by simp [skipped]), List.flatMap_cons]
      rw [if_neg Bool.false_ne_true]
      by_cases dotted : '.' ∈ name.toList
      · rw [if_pos (by simpa using dotted)]
        refine .error fun sound => ?_
        exact (List.forall_mem_cons.mp sound).1.ok.undotted dotted
      · rw [if_neg (by simpa using dotted)]
        have first := collects_property dotted required here
        exact (first.append rest).congr List.forall_mem_cons

/-- A level gives its leaves, by induction on its size. -/
theorem collects_level (above : List String) (level : Json.Members) :
    Collects (Levels above level) (leaves above level)
      (Schema.level (pathOf above) level level) := by
  have noProperties (none : ∀ properties, level.get? "properties" ≠ some (.obj properties)) :
      ¬ Levels above level := by
    intro levels
    obtain ⟨properties, object⟩ := (levels_iff.mp levels).1
    exact none properties object
  have noNames (none : ∀ names : List String,
      level.get? "required" ≠ some (.arr (names.map .str))) : ¬ Levels above level := by
    intro levels
    obtain ⟨names, list⟩ := (levels_iff.mp levels).2.1
    exact none names list
  rw [level_eq, leaves_eq]
  cases found : level.get? "properties" with
  | none => exact .error (noProperties (by simp [found]))
  | some v =>
    cases v with
    | obj properties =>
      dsimp only
      unfold Schema.required
      cases listed : level.get? "required" with
      | none => exact .error (noNames (by simp [listed]))
      | some w =>
        cases w with
        | arr items =>
          dsimp only
          cases named : names? items with
          | none =>
            refine .error (noNames fun names list => ?_)
            rw [listed, Option.some.injEq, Json.arr.injEq, ← names?_eq_some_iff, named] at list
            cases list
          | some names =>
            have required : level.get? "required" = some (.arr (names.map .str)) := by
              rw [listed, names?_eq_some_iff.mp named]
            have read : readProperties above level =
                properties.filter fun m => !(above.isEmpty && m.1 == Field.primaryKeyName) := by
              rw [readProperties, found]
            have columns := collects_properties properties required
              fun m mem property object isLevel => collects_level (above ++ [m.1]) property
            rw [← read] at columns
            exact columns.congr (levels_iff.trans
              ⟨fun h => h.2.2, fun each => ⟨⟨properties, found⟩, ⟨names, required⟩, each⟩⟩)
        | _ => exact .error (noNames (by simp [listed]))
    | _ => exact .error (noProperties (by simp [found]))
termination_by sizeOf level
decreasing_by
  obtain ⟨name, v⟩ := m
  subst object
  exact sizeOf_lt_of_mem_properties found mem

theorem map_key_of_isColumn {ls : List Leaf} {columns : List Field}
    (each : List.Forall₂ Leaf.IsColumn ls columns) :
    columns.map Field.key = ls.map Leaf.key := by
  induction each with
  | nil => rfl
  | cons first _ ih => rw [List.map_cons, List.map_cons, first.key, ih]

/-- The keys of columns pass as the schema asks for them. -/
theorem checkKeys_columns {root : Json.Members} {columns : List Field}
    (each : List.Forall₂ Leaf.IsColumn (leaves [] root) columns) :
    checkKeys [] (Field.primaryKey :: columns) = .ok () ↔
      (∀ key ∈ keys root, IsIdentifier key) ∧ (keys root).Nodup := by
  have same : (Field.primaryKey :: columns).map Field.key = keys root := by
    rw [List.map_cons, map_key_of_isColumn each]
    rfl
  rw [checkKeys_eq_ok_iff, same, ← same, List.forall_mem_map]
  simp [IsIdentifier]

end Schema

namespace Registry

/-- The registry of a schema: the key column, then the columns of the leaves. -/
structure IsReference (root : Json.Members) (r : Registry) : Prop where
  fields : ∃ columns, r.fields = Field.primaryKey :: columns ∧
    List.Forall₂ Schema.Leaf.IsColumn (Schema.leaves [] root) columns
  primaryKey : r.fields.filter Field.isPrimaryKey = [Field.primaryKey]
  lookup : ∀ key f, r.get? key = some f ↔ f ∈ r.fields ∧ f.key = key

theorem filter_isPrimaryKey {ls : List Schema.Leaf} {columns : List Field}
    (each : List.Forall₂ Schema.Leaf.IsColumn ls columns) :
    (Field.primaryKey :: columns).filter Field.isPrimaryKey = [Field.primaryKey] := by
  have none : columns.filter Field.isPrimaryKey = [] := by
    induction each with
    | nil => rfl
    | cons first _ ih => rw [List.filter_cons_of_neg (by simp [first.notKey]), ih]
  rw [List.filter_cons_of_pos rfl, none]

theorem ofSchema_eq_ok_iff {root : Json.Members} {r : Registry} :
    ofSchema (.obj root) = .ok r ↔
      Schema.level none root root = .ok r.columns ∧ Schema.checkKeys [] r.fields = .ok () := by
  constructor
  · intro ok
    obtain ⟨columns, collected, ok⟩ := Except.ok_bind.mp ok
    obtain ⟨⟨⟩, checked, ok⟩ := Except.ok_bind.mp ok
    cases ok
    exact ⟨collected, checked⟩
  · rintro ⟨collected, checked⟩
    exact Except.ok_bind.mpr ⟨_, collected, Except.ok_bind.mpr ⟨(), checked, rfl⟩⟩

theorem isReference_of_ofSchema {schema : Json} {r : Registry} (ok : ofSchema schema = .ok r) :
    ∃ root, schema = .obj root ∧ IsReference root r := by
  cases schema with
  | obj root =>
    have collects := Schema.collects_level [] root
    rw [Schema.pathOf, (ofSchema_eq_ok_iff.mp ok).1] at collects
    cases collects with
    | ok _ each =>
      exact ⟨root, rfl, ⟨r.columns, rfl, each⟩, filter_isPrimaryKey each,
        fun _ _ => (wellFormed_ofSchema ok).get?_eq_some_iff⟩
  | _ => cases ok

/-- The key column is the field with its name. -/
theorem isPrimaryKey_iff {schema : Json} {r : Registry} (ok : ofSchema schema = .ok r) {f : Field}
    (mem : f ∈ r.fields) : f.isPrimaryKey = true ↔ f.key = Field.primaryKeyName := by
  obtain ⟨_, -, reference⟩ := isReference_of_ofSchema ok
  constructor
  · intro key
    have only : f ∈ r.fields.filter Field.isPrimaryKey := List.mem_filter.mpr ⟨mem, key⟩
    rw [reference.primaryKey, List.mem_singleton] at only
    rw [only]
    rfl
  · intro same
    have one := eq_of_key (wellFormed_ofSchema ok).nodup mem List.mem_cons_self same
    rw [one]
    rfl

/-- **A registry is the leaves of its schema.** It is built if and only if the schema describes
a table. Then its fields are the key column and the columns of the leaves, depth first, and
a key finds the field that has it. -/
theorem ofSchema_reference (schema : Json) :
    ((∃ r, ofSchema schema = .ok r) ↔ ∃ root, schema = .obj root ∧ Schema.Describes root) ∧
    ∀ r, ofSchema schema = .ok r → ∃ root, schema = .obj root ∧ IsReference root r := by
  refine ⟨⟨?_, ?_⟩, fun _ => isReference_of_ofSchema⟩
  · rintro ⟨r, ok⟩
    obtain ⟨root, rfl, -⟩ := isReference_of_ofSchema ok
    obtain ⟨collected, checked⟩ := ofSchema_eq_ok_iff.mp ok
    have collects := Schema.collects_level [] root
    rw [Schema.pathOf, collected] at collects
    cases collects with
    | ok levels each =>
      obtain ⟨identifiers, distinct⟩ := (Schema.checkKeys_columns each).mp checked
      exact ⟨root, rfl, levels, identifiers, distinct⟩
  · rintro ⟨root, rfl, levels, identifiers, distinct⟩
    have collects := Schema.collects_level [] root
    rw [Schema.pathOf] at collects
    cases collected : Schema.level none root root with
    | error cause =>
      rw [collected] at collects
      cases collects with
      | error unsound => exact absurd levels unsound
    | ok columns =>
      rw [collected] at collects
      cases collects with
      | ok _ each =>
        have checked := (Schema.checkKeys_columns each).mpr ⟨identifiers, distinct⟩
        exact ⟨⟨columns⟩, ofSchema_eq_ok_iff.mpr ⟨collected, checked⟩⟩

/-- What the root requires is not required below it, and its own key property is not read. -/
example : (ofSchema (.obj [
    ("required", .arr [.str "city"]),
    ("properties", .obj [
      ("_id", .num (.int 7)),
      ("city", .obj [("type", .str "string"), ("unique", .bool true)]),
      ("home", .obj [("type", .str "object"), ("required", .arr []),
        ("properties", .obj [("city", .obj [("type", .str "string")])])])])])).map columns =
    .ok [⟨"city", "city", .text, false, true, true, none⟩,
      ⟨"home___city", "home.city", .text, false, false, false, none⟩] := rfl

end Registry
end DocTable
