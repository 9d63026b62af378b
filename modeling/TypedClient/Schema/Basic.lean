import TypedClient.Json.Text
import TypedClient.Text.Blank
/-!
# Schemas

`Schema.ofJson` reads a value as a schema. Every value is one: the keys
are tried in a fixed order, and what none of them recognises stands for
any type. A reference comes first, then the simple types, then a list of
values, the compositions, and the properties of an object.
-/

namespace TypedClient

/-- The simple kinds of values. -/
inductive Primitive where
  | string
  | number
  | boolean
  | null
deriving DecidableEq, Repr

/-- The ways to compose schemas. -/
inductive Composition where
  | oneOf
  | anyOf
  | allOf
deriving DecidableEq, Repr

/-- What tells the members of a composition apart: a property, and which
member each of its values means. -/
structure Discriminator where
  propertyName : String
  mapping : List (String × String)
deriving DecidableEq, Repr

/-- What an object schema says of a property besides its schema. -/
structure PropertyLabel where
  name : String
  readOnly : Bool
  description : Option String
deriving DecidableEq, Repr

/-- Which properties must be present: the object's own list if it has one,
and the lists of branches that say nothing else. -/
structure Presence where
  required : Option (List String)
  branches : List (List String)
deriving DecidableEq, Repr

/-- A schema. -/
inductive Schema where
  | primitive (kind : Primitive)
  | enum (values : List Json)
  | array (items : Schema)
  | object (properties : List (PropertyLabel × Schema)) (presence : Presence)
  | composition (kind : Composition) (members : List Schema) (discriminator : Option Discriminator)
  | reference (pointer : String)
  | any

/-- The value whose target is a pointer: the full pointer, or the text
after its last slash. The first entry wins. -/
def Discriminator.valueFor? (d : Discriminator) (pointer : String) : Option String :=
  let name := String.ofList ((Text.splitOn '/' pointer.toList).getLast?.getD [])
  (d.mapping.find? fun (_, target) => target == pointer || target == name).map (·.1)

/-- The names of required properties. The object's own list wins; without
one a property is required when each branch that names any names it. -/
def Presence.names (p : Presence) : List String :=
  match p.required with
  | some names => names
  | none =>
    match p.branches.filter (!·.isEmpty) with
    | [] => []
    | first :: others => first.filter fun name => others.all (·.contains name)

namespace Schema

instance : Inhabited Schema := ⟨.any⟩

/-- The value of a key that is a text. -/
def stringUnder (key : String) (members : List (String × Json)) : Option String :=
  (Json.find? key members).bind Json.string?

/-- The value of a key that is an array. -/
def arrayUnder (key : String) (members : List (String × Json)) : Option (List Json) :=
  (Json.find? key members).bind Json.items?

/-- The listed values, if there are any. -/
def enumValues (members : List (String × Json)) : Option (List Json) :=
  (arrayUnder "enum" members).bind fun values => if values.isEmpty then none else some values

/-- A listed value as a text. -/
def asText : Json → Json
  | .string s => .string s
  | other => .string other.text

/-- The texts of an array. -/
def strings (value : Json) : Option (List String) :=
  value.items?.map (·.filterMap Json.string?)

/-- The keys that give a schema a shape. -/
def shapeKeys : List String :=
  ["$ref", "type", "properties", "items", "enum", "allOf", "oneOf", "anyOf"]

/-- Whether a branch has no shape of its own and only says which
properties are present. -/
def saysPresenceOnly : Json → Bool
  | .object members => !shapeKeys.any fun key => Json.hasKey key members
  | _ => false

/-- Which properties an object schema requires. -/
def presence (members : List (String × Json)) : Presence :=
  ⟨(Json.find? "required" members).bind strings,
   ((arrayUnder "oneOf" members).getD []).filterMap fun branch =>
     (branch.get? "required").bind strings⟩

/-- The discriminator of a composition. -/
def discriminator? (value : Json) : Option Discriminator :=
  ((value.get? "propertyName").bind Json.string?).map fun name =>
    ⟨name, (((value.get? "mapping").bind Json.members?).getD []).filterMap fun (key, target) =>
      target.string?.map fun target => (key, target)⟩

/-- The label of a property with a name and a value. -/
def propertyLabel (name : String) (value : Json) : PropertyLabel :=
  ⟨name, ((value.get? "readOnly").bind Json.bool?).getD false,
   (value.get? "description").bind Json.string?⟩

mutual

/-- The schema that a value writes. -/
def ofJson : Json → Schema
  | .object members =>
    match stringUnder "$ref" members with
    | some pointer => .reference pointer
    | none =>
      match stringUnder "type" members with
      | some "integer" => .primitive .number
      | some "number" => .primitive .number
      | some "boolean" => .primitive .boolean
      | some "null" => .primitive .null
      | some "string" =>
        match enumValues members with
        | some values => .enum (values.map asText)
        | none => .primitive .string
      | some "array" => .array (itemSchema members)
      | _ =>
        match enumValues members with
        | some values => .enum values
        | none =>
          match schemasUnder "allOf" members with
          | some parts => .composition .allOf parts none
          | none =>
            match schemasUnder "oneOf" members with
            | some parts =>
              if Json.hasKey "properties" members &&
                  ((arrayUnder "oneOf" members).getD []).all saysPresenceOnly then
                .object (propertySchemas members) (presence members)
              else
                .composition .oneOf parts ((Json.find? "discriminator" members).bind discriminator?)
            | none =>
              match schemasUnder "anyOf" members with
              | some parts =>
                .composition .anyOf parts ((Json.find? "discriminator" members).bind discriminator?)
              | none =>
                if Json.hasKey "properties" members then
                  .object (propertySchemas members) (presence members)
                else .any
  | _ => .any
termination_by structural value => value

/-- The schema of the items of an array. -/
def itemSchema : List (String × Json) → Schema
  | [] => .any
  | (key, value) :: rest => if key = "items" then ofJson value else itemSchema rest
termination_by structural members => members

/-- The schemas of an array under a key. -/
def schemasUnder (key : String) : List (String × Json) → Option (List Schema)
  | [] => none
  | (k, value) :: rest =>
    if k = key then
      match value with
      | .array items => some (ofItems items)
      | _ => none
    else schemasUnder key rest
termination_by structural members => members

/-- The properties of an object. -/
def propertySchemas : List (String × Json) → List (PropertyLabel × Schema)
  | [] => []
  | (key, value) :: rest =>
    if key = "properties" then
      match value with
      | .object members => ofProperties members
      | _ => []
    else propertySchemas rest
termination_by structural members => members

/-- The schemas of values. -/
def ofItems : List Json → List Schema
  | [] => []
  | item :: rest => ofJson item :: ofItems rest
termination_by structural items => items

/-- The labelled schemas of properties. -/
def ofProperties : List (String × Json) → List (PropertyLabel × Schema)
  | [] => []
  | (name, value) :: rest => (propertyLabel name value, ofJson value) :: ofProperties rest
termination_by structural members => members

end

end Schema

end TypedClient
