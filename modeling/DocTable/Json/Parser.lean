import DocTable.Json.Basic
import DocTable.Json.Token

/-!
# Reading JSON

The tokens drive a machine that holds the containers begun and not ended. A text
is read when the last token ends a value outside every container. Containers may
be nested at most 127 deep.
-/

namespace DocTable.Json
set_option autoImplicit false

/-- A container begun and not ended; its items so far in reverse. -/
inductive Frame where
  | array (items : List Json)
  | object (members : Members) (key : String)

/-- What may come next. -/
inductive Expected where
  | value
  /-- A value, or the end of an empty array. -/
  | firstItem
  /-- A key, or the end of an empty object. -/
  | firstKey (members : Members)
  | key (members : Members)
  | colon (members : Members) (key : String)
  /-- After a value inside a container: a comma, or the container's end. -/
  | separator (last : Json)

/-- A reading in progress. `done` is the value once it is complete. -/
inductive Reading where
  | inside (frames : List Frame) (next : Expected)
  | done (value : Json)

def maxDepth : Nat := 127

namespace Reading

def start : Reading := .inside [] .value

/-- A value has ended. -/
def finish (frames : List Frame) (v : Json) : Reading :=
  match frames with
  | [] => .done v
  | _ => .inside frames (.separator v)

/-- Begins a container, unless it is nested too deep. Where a value may stand every
container around it has a frame. -/
def enter (depth : Nat) (r : Reading) : Option Reading :=
  if depth < maxDepth then some r else none

/-- A token where a value may stand. -/
def value (frames : List Frame) : Token → Option Reading
  | .null => some (finish frames .null)
  | .bool b => some (finish frames (.bool b))
  | .num n => some (finish frames (.num n))
  | .str s => some (finish frames (.str s))
  | .beginArray => enter frames.length (.inside (.array [] :: frames) .firstItem)
  | .beginObject => enter frames.length (.inside frames (.firstKey []))
  | _ => none

def step : Reading → Token → Option Reading
  | .done _, _ => none
  | .inside frames .value, t => value frames t
  | .inside (.array _ :: frames) .firstItem, .endArray => some (finish frames (.arr []))
  | .inside frames .firstItem, t => value frames t
  | .inside frames (.firstKey _), .endObject => some (finish frames (.obj []))
  | .inside frames (.firstKey ms), .str k => some (.inside frames (.colon ms k))
  | .inside frames (.key ms), .str k => some (.inside frames (.colon ms k))
  | .inside frames (.colon ms k), .colon => some (.inside (.object ms k :: frames) .value)
  | .inside (.array items :: frames) (.separator v), .comma =>
    some (.inside (.array (v :: items) :: frames) .value)
  | .inside (.array items :: frames) (.separator v), .endArray =>
    some (finish frames (.arr (v :: items).reverse))
  | .inside (.object ms k :: frames) (.separator v), .comma =>
    some (.inside frames (.key (Members.set k v ms)))
  | .inside (.object ms k :: frames) (.separator v), .endObject =>
    some (finish frames (.obj (Members.set k v ms)))
  | .inside _ _, _ => none

def result? : Reading → Option Json
  | .done v => some v
  | .inside _ _ => none

end Reading

/-- The value of a JSON text. -/
def parse? (s : String) : Option Json := do
  let ts ← tokens? s.toList
  let r ← ts.foldlM Reading.step Reading.start
  r.result?

end DocTable.Json
