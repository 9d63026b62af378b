import TypedClient.Api.Basic
import TypedClient.TypeExpr.Text
/-!
# An API as JSON

Endpoints are written with all they hold, and named types with their text.
What is absent is written as null. A case of a type with arguments is an
object with one member under the name of the case.
-/

namespace TypedClient

namespace Json

/-- The value of a text that may be absent. -/
def ofText? : Option String → Json
  | some s => .string s
  | none => .null

/-- The value of a number. -/
def ofNat (n : Nat) : Json := .number (.integer n)

/-- The value of a case with arguments. -/
def ofCase (name : String) (content : Json) : Json := .object [(name, content)]

end Json

/-- The name of a built-in type in JSON. -/
def Keyword.caseName : Keyword → String
  | .string => "String"
  | .number => "Number"
  | .boolean => "Boolean"
  | .null => "Null"
  | .any => "Any"

/-- The members for a field. -/
def FieldLabel.toJson (label : FieldLabel) (type : Json) : Json :=
  .object [("name", .string label.name), ("ty", type), ("required", .bool label.required),
    ("read_only", .bool label.readOnly), ("description", .ofText? label.description)]

namespace TypeExpr

mutual

/-- The value of a type expression. -/
def toJson : TypeExpr → Json
  | .keyword word => .ofCase "Keyword" (.string word.caseName)
  | .literal text => .ofCase "Literal" (.string text)
  | .ref name => .ofCase "Ref" (.string name)
  | .array element => .ofCase "Array" (toJson element)
  | .union members => .ofCase "Union" (.array (membersToJson members))
  | .intersection members => .ofCase "Intersection" (.array (membersToJson members))
  | .record fields => .ofCase "Object" (.array (fieldsToJson fields))
termination_by structural t => t

/-- The values of members. -/
def membersToJson : List TypeExpr → List Json
  | [] => []
  | t :: rest => toJson t :: membersToJson rest
termination_by structural ts => ts

/-- The values of fields. -/
def fieldsToJson : List (FieldLabel × TypeExpr) → List Json
  | [] => []
  | (label, t) :: rest => label.toJson (toJson t) :: fieldsToJson rest
termination_by structural fs => fs

end

end TypeExpr

/-- The value of a status. -/
def Status.toJson : Status → Json
  | .code n => .ofCase "Code" (.ofNat n)
  | .default => .string "Default"
  | .range key => .ofCase "Range" (.string key)

/-- The name of a parameter's type in JSON. -/
def SimpleType.caseName : SimpleType → String
  | .string => "String"
  | .number => "Number"
  | .any => "Any"

/-- The value of a parameter. -/
def Argument.toJson (a : Argument) : Json :=
  .object [("name", .string a.name), ("description", .ofText? a.description),
    ("required", .bool a.required), ("ty", .string a.type.caseName)]

/-- The value of a body. -/
def Body.toJson (b : Body) : Json :=
  .object [("description", .ofText? b.description), ("required", .bool b.required),
    ("media_type", .string b.mediaType), ("ty", b.type.toJson)]

/-- The value of an outcome. -/
def Outcome.toJson (o : Outcome) : Json :=
  .object [("status", o.status.toJson), ("description", .ofText? o.description),
    ("media_types", .array (o.mediaTypes.map fun (mediaType, type) =>
      .object [("media_type", .string mediaType), ("ty", type.toJson)]))]

/-- The value of an endpoint. -/
def Endpoint.toJson (e : Endpoint) : Json :=
  .object [("path", .string e.path), ("method", .string e.method.key),
    ("operation_id", .ofText? e.operationId), ("summary", .ofText? e.summary),
    ("basic_auth", .bool e.basicAuth),
    ("positional_params", .array (e.pathArguments.map Argument.toJson)),
    ("header_params", .array (e.headerArguments.map Argument.toJson)),
    ("query_params", .array (e.queryArguments.map Argument.toJson)),
    ("body_param", match e.body with
      | some b => b.toJson
      | none => .null),
    ("responses", .array (e.outcomes.map Outcome.toJson))]

/-- The value of the defined types, each with its text. -/
def Registry.toJson (r : Registry) : Json :=
  .array (r.definitions.map fun (name, named) =>
    .object [("name", .string name), ("description", .ofText? named.description),
      ("type", .string named.type.text)])

/-- The value of an API. -/
def Api.toJson (api : Api) : Json :=
  .object [("server", .string api.server),
    ("operations", .array (api.endpoints.map Endpoint.toJson)), ("types", api.types.toJson)]

end TypedClient
