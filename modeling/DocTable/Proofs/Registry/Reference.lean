import DocTable.Identifier
import DocTable.Path
import DocTable.Proofs.Record.Leaves
import DocTable.Registry.OfSchema

/-!
# What a schema describes

A schema is object levels within each other. The properties that are no objects are its leaves
(`Schema.leaves`), each with the names that lead to it; a leaf says all of its column
(`Leaf.IsColumn`). A schema describes a table when every level that is reached is in order and
the keys of the leaves can stand beside each other (`Describes`).
-/

namespace DocTable.Schema
set_option autoImplicit false

/-! ## Levels -/

/-- The properties of the level below some names. The root's own key property is not read. -/
def readProperties (above : List String) (level : Json.Members) : Json.Members :=
  match level.get? "properties" with
  | some (.obj properties) =>
    properties.filter fun m => !(above.isEmpty && m.1 == Field.primaryKeyName)
  | _ => []

def IsLevel (property : Json.Members) : Prop := property.get? "type" = some (.str "object")

instance (property : Json.Members) : Decidable (IsLevel property) :=
  inferInstanceAs (Decidable (_ = _))

/-- The levels of a schema, from one of them on, with the names that lead to them. -/
inductive Reached : List String → Json.Members → List String → Json.Members → Prop where
  | here {above : List String} {level : Json.Members} : Reached above level above level
  | inside {above around : List String} {level property inner : Json.Members} {name : String} :
      (name, .obj property) ∈ readProperties above level → IsLevel property →
      Reached (above ++ [name]) property around inner → Reached above level around inner

def supportedTypes : List String := ["object", "string", "number", "integer", "boolean"]

structure PropertyOk (name : String) (property : Json) : Prop where
  undotted : '.' ∉ name.toList
  typed : ∃ (members : Json.Members) (type : String),
    property = .obj members ∧ members.get? "type" = some (.str type) ∧
    type ∈ supportedTypes

structure LevelOk (above : List String) (level : Json.Members) : Prop where
  properties : ∃ properties, level.get? "properties" = some (.obj properties)
  required : ∃ names : List String, level.get? "required" = some (.arr (names.map .str))
  each : ∀ m ∈ readProperties above level, PropertyOk m.1 m.2

/-! ## Leaves -/

/-- A property that is no object, and the level that it stands in. -/
structure Leaf where
  above : List String
  name : String
  level : Json.Members
  property : Json.Members

def Leaf.path (l : Leaf) : String := ".".intercalate (l.above ++ [l.name])

def Leaf.key (l : Leaf) : String := Path.flatten l.path

theorem sizeOf_lt_of_mem_properties {level property properties : Json.Members} {name : String}
    (found : level.get? "properties" = some (.obj properties))
    (mem : (name, .obj property) ∈ properties) : sizeOf property < sizeOf level := by
  have inner := List.sizeOf_lt_of_mem mem
  have outer := List.sizeOf_lt_of_mem (Json.Members.mem_of_get? found)
  simp only [Prod.mk.sizeOf_spec, Json.obj.sizeOf_spec] at inner outer
  omega

theorem sizeOf_lt_of_mem_readProperties {above : List String} {level property : Json.Members}
    {name : String} (mem : (name, .obj property) ∈ readProperties above level) :
    sizeOf property < sizeOf level := by
  unfold readProperties at mem
  split at mem
  · rename_i properties found
    exact sizeOf_lt_of_mem_properties found (List.mem_of_mem_filter mem)
  · cases mem

/-- The leaves of a level, depth first. -/
def leaves (above : List String) (level : Json.Members) : List Leaf :=
  (readProperties above level).attach.flatMap fun
    | ⟨(name, .obj property), _⟩ =>
      if IsLevel property then leaves (above ++ [name]) property
      else [⟨above, name, level, property⟩]
    | _ => []
termination_by sizeOf level
decreasing_by exact sizeOf_lt_of_mem_readProperties ‹_›

/-- The leaves that a property of a level gives. -/
def leavesOfProperty (above : List String) (level : Json.Members) : String × Json → List Leaf
  | (name, .obj property) =>
    if IsLevel property then leaves (above ++ [name]) property
    else [⟨above, name, level, property⟩]
  | _ => []

theorem leaves_eq (above : List String) (level : Json.Members) :
    leaves above level = (readProperties above level).flatMap (leavesOfProperty above level) := by
  have each : (readProperties above level).attach.flatMap
      (fun m => leavesOfProperty above level m.1) =
        (readProperties above level).flatMap (leavesOfProperty above level) := by
    rw [List.flatMap_subtype fun _ _ => rfl, List.unattach_attach]
  rw [leaves, ← each]
  refine congrArg (fun g => List.flatMap g _) (funext fun m => ?_)
  obtain ⟨⟨name, v⟩, mem⟩ := m
  cases v <;> rfl

/-! ## Columns -/

/-- Text that holds encoded bytes. -/
def IsBinary (property : Json.Members) : Prop :=
  property.get? "format" = some (.str "binary") ∨ ∃ v, property.get? "contentEncoding" = some v

/-- The column type of a property. -/
inductive HasType (property : Json.Members) : ColumnType → Prop where
  | text : property.get? "type" = some (.str "string") → ¬ IsBinary property →
      HasType property .text
  | blob : property.get? "type" = some (.str "string") → IsBinary property →
      HasType property .blob
  | double : property.get? "type" = some (.str "number") → HasType property .double
  | number : property.get? "type" = some (.str "integer") → HasType property .number
  | boolean : property.get? "type" = some (.str "boolean") → HasType property .boolean

/-- A field that says what a leaf says. -/
structure Leaf.IsColumn (l : Leaf) (f : Field) : Prop where
  path : f.sourcePath = l.path
  key : f.key = l.key
  type : HasType l.property f.type
  notKey : f.isPrimaryKey = false
  unique : f.isUnique = true ↔ l.property.get? "unique" = some (.bool true)
  /-- Only the level that the leaf stands in requires it. -/
  required : f.isRequired = true ↔
    ∃ items, l.level.get? "required" = some (.arr items) ∧ .str l.name ∈ items
  maxLength : ∀ n, f.maxLength = some n ↔ f.type = .text ∧ n ≤ Bounds.maxUInt32 ∧
    ∃ number, l.property.get? "maxLength" = some (.num number) ∧ number.toUInt64? = some n

/-- A name that may be a column's. -/
def IsIdentifier (name : String) : Prop :=
  Identifier.isWord name.toList = true ∧ name.utf8ByteSize ≤ Identifier.maxLength

/-- The keys of the columns that a schema asks for. -/
def keys (root : Json.Members) : List String :=
  Field.primaryKeyName :: (leaves [] root).map Leaf.key

structure Describes (root : Json.Members) : Prop where
  levels : ∀ above level, Reached [] root above level → LevelOk above level
  identifiers : ∀ key ∈ keys root, IsIdentifier key
  distinct : (keys root).Nodup

end DocTable.Schema
