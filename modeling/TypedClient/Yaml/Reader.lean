import TypedClient.Json.Basic
import TypedClient.Yaml.Block
import TypedClient.Yaml.Expansion
/-!
# YAML as JSON

`Value.toJson` turns a YAML value into a JSON value of the same structure.
Tags do not count, and what is no finite number becomes null. The key of
an entry becomes a text: a scalar its own, and a collection its block.
Entries whose keys become equal are one, at the first place with the last
value.
-/

namespace TypedClient

namespace Yaml

namespace Value

/-- The text for a key. -/
def keyText : Value → String
  | .string s => s
  | .null => "null"
  | .bool true => "true"
  | .bool false => "false"
  | .integer n => Json.integerText n
  | .real x => Block.realText x
  | other => other.blockText

mutual

/-- The JSON value for a YAML value. -/
def toJson : Value → Json
  | .null => .null
  | .bool b => .bool b
  | .integer n => .number (.integer n)
  | .real (.finite x) => .number (.double x)
  | .real _ => .null
  | .string s => .string s
  | .sequence items => .array (itemsToJson items)
  | .mapping entries => .object (entriesToJson [] entries)
  | .tagged _ value => toJson value
termination_by structural v => v

/-- The JSON values for items. -/
def itemsToJson : List Value → List Json
  | [] => []
  | item :: rest => toJson item :: itemsToJson rest
termination_by structural items => items

/-- The members for entries, added to those before. -/
def entriesToJson (before : List (String × Json)) :
    List (Value × Value) → List (String × Json)
  | [] => before
  | (key, value) :: rest => entriesToJson (Json.insert (keyText key) (toJson value) before) rest
termination_by structural entries => entries

end

end Value

/-- The JSON value that a YAML text writes. -/
def read? (text : String) : Option Json := (Value.ofText? text).map Value.toJson

end Yaml

end TypedClient
