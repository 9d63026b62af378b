import TypedClient.Error
import TypedClient.Document.Basic
/-!
# Reading values by shape

Functions that read a value of an expected shape or say how it fails. A
record is read from the members of an object in the order they are
written, so the first failing member decides; unknown members do not
count. It may also be written as an array of its fields in their own
order, where missing ones at the end keep their start values.
-/

namespace TypedClient

/-- A result, or how the value fails. -/
abbrev Shape (α : Type) := Except ShapeError α

namespace Shape

/-- A text. -/
def text : Json → Shape String
  | .string s => .ok s
  | found => .error (.unexpected found "a string")

/-- A truth value. -/
def flag : Json → Shape Bool
  | .bool b => .ok b
  | found => .error (.unexpected found "a boolean")

/-- A value or null. -/
def optional {α : Type} (read : Json → Shape α) : Json → Shape (Option α)
  | .null => .ok none
  | found => (read found).map some

/-- The items of a list, each read. -/
def each {α : Type} (read : Json → Shape α) : List Json → Shape (List α)
  | [] => .ok []
  | item :: rest => do
    let first ← read item
    let others ← each read rest
    return first :: others

/-- A list. -/
def list {α : Type} (read : Json → Shape α) : Json → Shape (List α)
  | .array items => each read items
  | found => .error (.unexpected found "a sequence")

/-- The members of a map, each value read. -/
def eachMember {α : Type} (read : Json → Shape α) :
    List (String × Json) → Shape (List (String × α))
  | [] => .ok []
  | (key, value) :: rest => do
    let first ← read value
    let others ← eachMember read rest
    return (key, first) :: others

/-- A map. -/
def map {α : Type} (read : Json → Shape α) : Json → Shape (List (String × α))
  | .object members => eachMember read members
  | found => .error (.unexpected found "a map")

/-- The steps for named values, one after another. -/
def steps {ρ : Type} (step : ρ → String → Json → Shape ρ) : ρ → List (String × Json) → Shape ρ
  | record, [] => .ok record
  | record, (key, value) :: rest => do
    let next ← step record key value
    steps step next rest

/-- A record: `step` reads one field into what has been read so far. -/
def record {ρ : Type} (name : String) (fields : List String)
    (step : ρ → String → Json → Shape ρ) (start : ρ) : Json → Shape ρ
  | .object members => steps step start members
  | .array items => do
    let result ← steps step start (fields.zip items)
    if fields.length < items.length then .error (.tooLong items.length) else return result
  | found => .error (.unexpected found ("struct " ++ name))

/-- A required field of a record that was read from a value. -/
def required {α : Type} (name : String) (fields : List String) (field : String) (source : Json) :
    Option α → Shape α
  | some value => .ok value
  | none =>
    match source with
    | .array items => .error (.tooShort items.length ("struct " ++ name) fields.length)
    | _ => .error (.missing field)

/-- An item or a reference to one. Whatever is wrong inside, the failure
is that the value is neither. -/
def refOr {α : Type} (read : Json → Shape α) (value : Json) : Shape (RefOr α) :=
  match value.get? "$ref" with
  | some (.string pointer) => .ok (.reference pointer)
  | _ =>
    match read value with
    | .ok item => .ok (.item item)
    | .error _ => .error .noVariant

/-- A schema: every value is one. -/
def schema (value : Json) : Shape Schema := .ok (Schema.ofJson value)

/-- A value as it is. -/
def value (value : Json) : Shape Json := .ok value

end Shape

end TypedClient
