import DocTable.Clause.Names
import DocTable.Condition.Basic
import DocTable.Filter
import DocTable.Statement.Draft

/-!
# Conditions of a filter

Keys that start with `$` are operators, all others names. Every member of a
filter adds the conditions it stands for, all to be met. An object under a name
that is no column, without operators, is read as names below it.
-/

namespace DocTable.Condition
set_option autoImplicit false

def isOperator (key : String) : Bool :=
  match key.toList with
  | '$' :: _ => true
  | _ => false

def hasOperator (ms : Json.Members) : Bool := ms.any fun m => isOperator m.1

/-- The operators of an object that holds nothing else. -/
def isOperatorObject (ms : Json.Members) : Bool :=
  !ms.isEmpty && ms.all fun m => isOperator m.1

def comparison? (op : String) : Option Comparison :=
  match op with
  | "$eq" => some .equal
  | "$ne" => some .notEqual
  | "$gt" => some .above
  | "$gte" => some .atLeast
  | "$lt" => some .below
  | "$lte" => some .atMost
  | _ => none

private def refuse {α : Type} (cause : FilterError) : Draft α := Draft.fail (.filter cause)

/-! ## Conditions on one field -/

/-- The values of a list, taken in order. -/
def listValues (f : Field) : List Json → Draft (List SqlValue)
  | [] => pure []
  | .arr _ :: _ | .obj _ :: _ => refuse (.scalarItems f.sourcePath)
  | item :: items => do
    let value ← Draft.takeFor f item
    let values ← listValues f items
    return value :: values

/-- Among the values of a list; nothing is among those of an empty one. -/
def ofList (f : Field) (negated : Bool) : List Json → Draft Condition
  | [] => pure .never
  | items => do return .isIn f.key negated (← listValues f items)

/-- A comparison; only equality is defined for null. -/
def ofComparison (f : Field) (op : String) (comparison : Comparison) :
    Json → Draft Condition
  | .null =>
    match comparison with
    | .equal => pure (.isNull f.key)
    | .notEqual => pure (.isNotNull f.key)
    | _ => refuse (.scalarExpected op f.sourcePath)
  | .arr _ | .obj _ => refuse (.scalarExpected op f.sourcePath)
  | operand => do return .compare f.key comparison (← Draft.takeFor f operand)

/-- A pattern is text, for the columns that hold text. -/
def ofLike (f : Field) : Json → Draft Condition
  | .str pattern =>
    if f.type.isTextual then do return .like f.key (← Draft.take (.text pattern))
    else refuse (.likeNeedsText f.sourcePath)
  | _ => refuse (.patternExpected f.sourcePath)

/-- What one operator asks of a field. To be outside an empty list asks nothing. -/
def ofOperator (f : Field) (op : String) (operand : Json) : Draft (List Condition) :=
  match comparison? op with
  | some comparison => do return [← ofComparison f op comparison operand]
  | none =>
    match op, operand with
    | "$in", .arr items => do return [← ofList f false items]
    | "$nin", .arr [] => pure []
    | "$nin", .arr items => do return [← ofList f true items]
    | "$in", _ | "$nin", _ => refuse (.listExpected op f.sourcePath)
    | "$like", pattern => do return [← ofLike f pattern]
    | "$exists", .bool true => pure [.isNotNull f.key]
    | "$exists", .bool false => pure [.isNull f.key]
    | "$exists", _ => refuse (.booleanExpected f.sourcePath)
    | op, _ => refuse (.unknownOperator op)

def ofOperators (f : Field) : List (String × Json) → Draft (List Condition)
  | [] => pure []
  | (op, operand) :: more => do
    let here ← ofOperator f op operand
    let rest ← ofOperators f more
    return here ++ rest

/-- What a value asks of a field. -/
def ofField (f : Field) : Json → Draft (List Condition)
  | .null => pure [.isNull f.key]
  | .arr items => do return [← ofList f false items]
  | .obj [] => pure []
  | .obj members =>
    if isOperatorObject members then ofOperators f members
    else refuse (.valueOrOperators f.sourcePath)
  | scalar => do return [.compare f.key .equal (← Draft.takeFor f scalar)]

/-! ## Conditions of a whole filter -/

/-- What a key of a filter says. -/
inductive Key where
  /-- The filters of a list, joined. -/
  | junction (join : List Condition → Condition)
  | negation
  | misplaced
  | name

def Key.of (key : String) : Key :=
  if !isOperator key then .name
  else
    match key with
    | "$and" => .junction .all
    | "$or" => .junction .any
    | "$not" => .negation
    | _ => .misplaced

def unknown (policy : FieldPolicy) (path : String) : Draft (List Condition) :=
  Draft.ofExcept ((policy.unknown path).map fun _ => [])

mutual
/-- The conditions of an object's members, names read below `parent`. -/
def ofMembers (r : Registry) (policy : FieldPolicy) (parent : Option String) :
    List (String × Json) → Draft (List Condition)
  | [] => pure []
  | (key, value) :: more => do
    let here ← ofMember r policy parent key value
    let rest ← ofMembers r policy parent more
    return here ++ rest

def ofMember (r : Registry) (policy : FieldPolicy) (parent : Option String) (key : String) :
    Json → Draft (List Condition)
  | .obj members =>
    match Key.of key with
    | .junction _ => refuse (.filtersExpected key)
    | .negation => do
      let parts ← ofMembers r policy none members
      return if parts.isEmpty then [] else [.not parts]
    | .misplaced => refuse (.notOnField key)
    | .name =>
      let path := Path.child parent key
      match r.resolve? path with
      | some f => ofField f (.obj members)
      | none =>
        if hasOperator members then unknown policy path
        else ofMembers r policy (some path) members
  | .arr items =>
    match Key.of key with
    | .junction join => do
      let parts ← ofFilters r policy key items
      return group join parts
    | .negation => refuse .notExpectsObject
    | .misplaced => refuse (.notOnField key)
    | .name =>
      let path := Path.child parent key
      match r.resolve? path with
      | some f => ofField f (.arr items)
      | none => unknown policy path
  | scalar =>
    match Key.of key with
    | .junction _ => refuse (.filtersExpected key)
    | .negation => refuse .notExpectsObject
    | .misplaced => refuse (.notOnField key)
    | .name =>
      let path := Path.child parent key
      match r.resolve? path with
      | some f => ofField f scalar
      | none => unknown policy path

/-- One condition for each filter of a list that asks anything. -/
def ofFilters (r : Registry) (policy : FieldPolicy) (op : String) :
    List Json → Draft (List Condition)
  | [] => pure []
  | .obj members :: more => do
    let parts ← ofMembers r policy none members
    let rest ← ofFilters r policy op more
    return group .all parts ++ rest
  | _ :: _ => refuse (.itemsNotObjects op)
end

/-- The conditions that a filter stands for. -/
def ofFilter (r : Registry) (policy : FieldPolicy) (f : Filter) : Draft (List Condition) :=
  ofMembers r policy none f.members

end DocTable.Condition
