import DocTable.Identifier
import DocTable.Json.Basic
import DocTable.Registry.Basic

/-!
# Columns from a schema

A schema has `properties` and a list `required`. A property of type `object` is
a schema of its own, and its leaves become columns of the same table. Keys must
be identifiers, and no two properties may have the same key.
-/

namespace DocTable
set_option autoImplicit false

/-- Why a schema describes no table. A location is a dotted path or the root. -/
inductive SchemaError where
  | noProperties (location : String)
  | propertiesNotObject (location : String)
  | noRequired (location : String)
  | requiredNotArray (location : String)
  | requiredNotNames (location : String)
  | dottedName (path : String)
  | propertyNotObject (path : String)
  | noType (path : String)
  | unsupportedType (path type : String)
  | badKey (cause : IdentifierError)
  | duplicateKey (path key : String)
  deriving DecidableEq, Repr

def SchemaError.message : SchemaError → String
  | .noProperties location => "schema for " ++ location ++ " has no 'properties'"
  | .propertiesNotObject location => "'properties' of " ++ location ++ " must be an object"
  | .noRequired location => "schema for " ++ location ++ " has no 'required'"
  | .requiredNotArray location => "'required' of " ++ location ++ " must be an array"
  | .requiredNotNames location =>
    "'required' of " ++ location ++ " must only contain property names"
  | .dottedName path => "Property name '" ++ path ++ "' cannot contain '.'"
  | .propertyNotObject path => "Property '" ++ path ++ "' must be an object"
  | .noType path => "Property '" ++ path ++ "' has no 'type'"
  | .unsupportedType path type => "Property '" ++ path ++ "' has unsupported type '" ++ type ++ "'"
  | .badKey cause => cause.message
  | .duplicateKey path key =>
    "Property '" ++ path ++ "' flattens to a duplicate column '" ++ key ++ "'"

namespace Schema

def locationName (parent : Option String) : String := parent.getD "<root>"

def stringMember? (key : String) (ms : Json.Members) : Option String :=
  match ms.get? key with
  | some (.str s) => some s
  | _ => none

def boolMember? (key : String) (ms : Json.Members) : Option Bool :=
  match ms.get? key with
  | some (.bool b) => some b
  | _ => none

/-- Text goes without a length when it holds encoded bytes. -/
def isBinary (property : Json.Members) : Bool :=
  stringMember? "format" property == some "binary" || (property.get? "contentEncoding").isSome

def columnType? (type : String) (property : Json.Members) : Option ColumnType :=
  match type with
  | "string" => some (if isBinary property then .blob else .text)
  | "number" => some .double
  | "integer" => some .number
  | "boolean" => some .boolean
  | _ => none

/-- The declared length, of texts only, when it fits 32 bits. -/
def maxLength? (type : ColumnType) (property : Json.Members) : Option Nat :=
  match type, property.get? "maxLength" with
  | .text, some (.num n) => n.toUInt64?.filter fun m => decide (m ≤ Bounds.maxUInt32)
  | _, _ => none

/-- The names in a list of names. -/
def names? (items : List Json) : Option (List String) :=
  items.mapM fun item =>
    match item with
    | .str s => some s
    | _ => none

def required (parent : Option String) (schema : Json.Members) :
    Except SchemaError (List String) :=
  match schema.get? "required" with
  | none => .error (.noRequired (locationName parent))
  | some (.arr items) =>
    match names? items with
    | some names => .ok names
    | none => .error (.requiredNotNames (locationName parent))
  | some _ => .error (.requiredNotArray (locationName parent))

/-- The type that a property names. -/
def typeName (path : String) (property : Json.Members) : Except SchemaError String :=
  match stringMember? "type" property with
  | some t => .ok t
  | none => .error (.noType path)

/-- The column of a property that is no object. -/
def leaf (path : String) (required : Bool) (type : String) (property : Json.Members) :
    Except SchemaError Field :=
  match columnType? type property with
  | none => .error (.unsupportedType path type)
  | some t => .ok
    { key := Path.flatten path
      sourcePath := path
      type := t
      isPrimaryKey := false
      isUnique := (boolMember? "unique" property).getD false
      isRequired := required
      maxLength := maxLength? t property }

mutual
/-- The columns below an object level. The members are searched for `properties`; `whole`
is the level they belong to. -/
def level (parent : Option String) (whole : Json.Members) :
    List (String × Json) → Except SchemaError (List Field)
  | [] => .error (.noProperties (locationName parent))
  | (key, value) :: more =>
    if key = "properties" then
      match value with
      | .obj properties => do
        let names ← required parent whole
        propertyColumns parent names properties
      | _ => .error (.propertiesNotObject (locationName parent))
    else level parent whole more

/-- The columns of a level's properties, depth first. The root's own key property is
skipped unread. -/
def propertyColumns (parent : Option String) (requiredNames : List String) :
    List (String × Json) → Except SchemaError (List Field)
  | [] => .ok []
  | (name, property) :: more =>
    if parent.isNone && name == Field.primaryKeyName then
      propertyColumns parent requiredNames more
    else if name.toList.contains '.' then .error (.dottedName (Path.child parent name))
    else do
      let here ← columnsOfProperty (Path.child parent name) (requiredNames.contains name) property
      let rest ← propertyColumns parent requiredNames more
      .ok (here ++ rest)

/-- The columns of one property. -/
def columnsOfProperty (path : String) (isRequired : Bool) : Json → Except SchemaError (List Field)
  | .obj members => do
    let type ← typeName path members
    if type = "object" then level (some path) members members
    else return [← leaf path isRequired type members]
  | _ => .error (.propertyNotObject path)
end

/-- Every key is an identifier, and no key comes twice. -/
def checkKeys : List String → List Field → Except SchemaError Unit
  | _, [] => .ok ()
  | seen, f :: fs =>
    match Identifier.check f.key with
    | .error cause => .error (.badKey cause)
    | .ok () =>
      if seen.contains f.key then .error (.duplicateKey f.sourcePath f.key)
      else checkKeys (f.key :: seen) fs

end Schema

/-- The registry that a schema describes. -/
def Registry.ofSchema (schema : Json) : Except SchemaError Registry := do
  let members := match schema with
    | .obj members => members
    | _ => []
  let columns ← Schema.level none members members
  let registry := Registry.mk columns
  Schema.checkKeys [] registry.fields
  return registry

end DocTable
