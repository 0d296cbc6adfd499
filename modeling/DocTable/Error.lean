import DocTable.Coercion
import DocTable.Identifier
import DocTable.Registry.OfSchema

/-!
# Failures

An error is its cause; `message` writes it out. A client error is one that the
request caused, and not the schema, the table's name or the database.
-/

namespace DocTable
set_option autoImplicit false

/-- Why a filter is refused. A path names a field, `op` an operator. -/
inductive FilterError where
  | notJson
  | notObject (kind : String)
  | filtersExpected (op : String)
  | itemsNotObjects (op : String)
  | notExpectsObject
  | notOnField (op : String)
  | valueOrOperators (path : String)
  | listExpected (op path : String)
  | scalarItems (path : String)
  | patternExpected (path : String)
  | likeNeedsText (path : String)
  | booleanExpected (path : String)
  | unknownOperator (op : String)
  | scalarExpected (op path : String)
  deriving DecidableEq, Repr

def FilterError.message : FilterError → String
  | .notJson => "filter is not valid JSON"
  | .notObject kind => "filter must be a JSON object, got " ++ kind
  | .filtersExpected op => "'" ++ op ++ "' expects an array of filters"
  | .itemsNotObjects op => "'" ++ op ++ "' items must be objects"
  | .notExpectsObject => "'$not' expects a filter object"
  | .notOnField op => "operator '" ++ op ++ "' must be applied to a field"
  | .valueOrOperators path => "field '" ++ path ++ "' expects a value or an operator object"
  | .listExpected op path => "'" ++ op ++ "' on '" ++ path ++ "' expects an array"
  | .scalarItems path => "list for '" ++ path ++ "' must only contain scalar values"
  | .patternExpected path => "'$like' on '" ++ path ++ "' expects a string"
  | .likeNeedsText path => "'$like' is only supported on text fields, not '" ++ path ++ "'"
  | .booleanExpected path => "'$exists' on '" ++ path ++ "' expects a boolean"
  | .unknownOperator op => "unknown operator '" ++ op ++ "'"
  | .scalarExpected op path => "'" ++ op ++ "' on '" ++ path ++ "' expects a scalar value"

/-- Why a payload is refused. -/
inductive ValidationError where
  | coercion (cause : CoercionError)
  | recordNotObject (kind : String)
  | notSingleId (id : String)
  deriving DecidableEq, Repr

def ValidationError.message : ValidationError → String
  | .coercion cause => cause.message
  | .recordNotObject kind => "Record must be a JSON object, got " ++ kind
  | .notSingleId id => "'" ++ id ++ "' is not a single id; use delete_many"

/-- Why a database operation failed. -/
inductive ExecutionError where
  /-- Reported by the executor. -/
  | reported (message : String)
  /-- With what the server said, when it was reached. -/
  | connectionFailed (answer : Option String)
  | noCountRow
  | badCount (value : Json)
  | insertedRowMissing
  | reselected (found wanted : Nat)
  deriving DecidableEq, Repr

def ExecutionError.message : ExecutionError → String
  | .reported message => message
  | .connectionFailed none => "Database connection failed"
  | .connectionFailed (some answer) => "Database connection failed: " ++ answer
  | .noCountRow => "count query returned no rows"
  | .badCount value => "count query returned '" ++ value.compact ++ "'"
  | .insertedRowMissing => "inserted row was not found"
  | .reselected found wanted =>
    "re-select found " ++ toString found ++ " of " ++ toString wanted ++ " inserted rows"

inductive Error where
  | schema (cause : SchemaError)
  | filter (cause : FilterError)
  | noData
  | noMatchingFields
  | noIdProvided
  | unknownField (name : String)
  | validation (cause : ValidationError)
  | invalidIdentifier (cause : IdentifierError)
  | execution (cause : ExecutionError)
  | sql (message : String)
  deriving DecidableEq, Repr

namespace Error

def message : Error → String
  | .schema cause => "Schema error: " ++ cause.message
  | .filter cause => "Invalid filter: " ++ cause.message
  | .noData => "No data to insert"
  | .noMatchingFields => "Data has no matching field to update"
  | .noIdProvided => "No id provided"
  | .unknownField name => "Unknown field: " ++ name
  | .validation cause => "Validation error: " ++ cause.message
  | .invalidIdentifier cause => "Invalid identifier: " ++ cause.message
  | .execution cause => "Execution error: " ++ cause.message
  | .sql message => "SQL error: " ++ message

def isClient : Error → Bool
  | .filter _ | .noData | .noMatchingFields | .noIdProvided | .unknownField _ | .validation _ =>
    true
  | .schema _ | .invalidIdentifier _ | .execution _ | .sql _ => false

end Error

end DocTable
