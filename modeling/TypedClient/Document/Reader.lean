import TypedClient.Document.Shape
/-!
# Reading a description

`Document.ofJson` reads a value as a description of an API, part by part,
with the fields of each record in its own order.
-/

namespace TypedClient

open Shape

/-- A location by its name, or by a map from its name to null. -/
def Location.ofJson (value : Json) : Shape Location :=
  let name := match value with
    | .string s => some s
    | .object [(key, .null)] => some key
    | _ => none
  match name with
  | some "path" => .ok .path
  | some "query" => .ok .query
  | some "header" => .ok .header
  | some "cookie" => .ok .cookie
  | _ => .error (.unexpected value "a parameter location")

namespace Parameter

/-- The fields of a parameter. -/
def fields : List String := ["name", "in", "description", "required", "schema"]

/-- A parameter while it is read. -/
structure Draft where
  name : Option String
  location : Option Location
  description : Option String
  required : Bool
  schema : Option Schema

/-- One field of a parameter. -/
def step (draft : Draft) (key : String) (value : Json) : Shape Draft := do
  match key with
  | "name" => return { draft with name := some (← text value) }
  | "in" => return { draft with location := some (← Location.ofJson value) }
  | "description" => return { draft with description := ← optional text value }
  | "required" => return { draft with required := ← flag value }
  | "schema" => return { draft with schema := ← optional Shape.schema value }
  | _ => return draft

/-- A parameter. -/
def ofJson (value : Json) : Shape Parameter := do
  let draft ← record "Parameter" fields step ⟨none, none, none, false, none⟩ value
  let name ← Shape.required "Parameter" fields "name" value draft.name
  let location ← Shape.required "Parameter" fields "in" value draft.location
  return ⟨name, location, draft.description, draft.required, draft.schema⟩

end Parameter

/-- The schema of a media type. -/
def mediaSchema (value : Json) : Shape (Option Schema) :=
  record "MediaType" ["schema"] (fun schema key value => do
    match key with
    | "schema" => optional Shape.schema value
    | _ => return schema) none value

namespace RequestBody

/-- One field of a request body. -/
def step (body : RequestBody) (key : String) (value : Json) : Shape RequestBody := do
  match key with
  | "description" => return { body with description := ← optional text value }
  | "content" => return { body with content := ← map mediaSchema value }
  | "required" => return { body with required := ← flag value }
  | _ => return body

/-- A request body. -/
def ofJson (value : Json) : Shape RequestBody :=
  record "RequestBody" ["description", "content", "required"] step ⟨none, [], false⟩ value

end RequestBody

namespace Response

/-- One field of a response. -/
def step (response : Response) (key : String) (value : Json) : Shape Response := do
  match key with
  | "description" => return { response with description := ← optional text value }
  | "content" => return { response with content := ← map mediaSchema value }
  | _ => return response

/-- A response. -/
def ofJson (value : Json) : Shape Response :=
  record "Response" ["description", "content"] step ⟨none, []⟩ value

end Response

namespace SecurityScheme

/-- A security scheme. -/
def ofJson (value : Json) : Shape SecurityScheme := do
  let fields := ["type", "scheme"]
  let draft ← record "SecurityScheme" fields
    (fun (draft : Option String × Option String) key value => do
      match key with
      | "type" => return (some (← text value), draft.2)
      | "scheme" => return (draft.1, ← optional text value)
      | _ => return draft) (none, none) value
  let kind ← required "SecurityScheme" fields "type" value draft.1
  return ⟨kind, draft.2⟩

end SecurityScheme

/-- Security requirements. -/
def requirements (value : Json) : Shape (List Requirement) := list (map (list text)) value

namespace Operation

/-- The operation that says nothing. -/
def blank : Operation := ⟨none, none, none, [], none, [], none⟩

/-- The fields of an operation. -/
def fields : List String :=
  ["operationId", "summary", "description", "parameters", "requestBody", "responses", "security"]

/-- One field of an operation. -/
def step (operation : Operation) (key : String) (value : Json) : Shape Operation := do
  match key with
  | "operationId" => return { operation with operationId := ← optional text value }
  | "summary" => return { operation with summary := ← optional text value }
  | "description" => return { operation with description := ← optional text value }
  | "parameters" => return { operation with parameters := ← list (refOr Parameter.ofJson) value }
  | "requestBody" =>
    return { operation with requestBody := ← optional (refOr RequestBody.ofJson) value }
  | "responses" => return { operation with responses := ← map (refOr Response.ofJson) value }
  | "security" => return { operation with security := ← optional requirements value }
  | _ => return operation

/-- An operation. -/
def ofJson (value : Json) : Shape Operation := record "Operation" fields step blank value

end Operation

namespace PathItem

/-- The path without operations. -/
def blank : PathItem := ⟨none, none, none, none, none, []⟩

/-- The fields of a path item. -/
def fields : List String := ["get", "post", "put", "patch", "delete", "parameters"]

/-- One field of a path item. -/
def step (item : PathItem) (key : String) (value : Json) : Shape PathItem := do
  match key with
  | "get" => return { item with get := ← optional Operation.ofJson value }
  | "post" => return { item with post := ← optional Operation.ofJson value }
  | "put" => return { item with put := ← optional Operation.ofJson value }
  | "patch" => return { item with patch := ← optional Operation.ofJson value }
  | "delete" => return { item with delete := ← optional Operation.ofJson value }
  | "parameters" => return { item with parameters := ← list (refOr Parameter.ofJson) value }
  | _ => return item

/-- A path item. -/
def ofJson (value : Json) : Shape PathItem := record "PathItem" fields step blank value

end PathItem

namespace Info

/-- One field of what an API is called. -/
def step (info : Info) (key : String) (value : Json) : Shape Info := do
  match key with
  | "title" => return { info with title := ← text value }
  | "version" => return { info with version := ← text value }
  | "description" => return { info with description := ← optional text value }
  | _ => return info

/-- What an API is called. -/
def ofJson (value : Json) : Shape Info :=
  record "Info" ["title", "version", "description"] step ⟨"", "", none⟩ value

end Info

namespace Server

/-- A server. -/
def ofJson (value : Json) : Shape Server := do
  let fields := ["url", "description"]
  let draft ← record "Server" fields
    (fun (draft : Option String × Option String) key value => do
      match key with
      | "url" => return (some (← text value), draft.2)
      | "description" => return (draft.1, ← optional text value)
      | _ => return draft) (none, none) value
  let url ← required "Server" fields "url" value draft.1
  return ⟨url, draft.2⟩

end Server

namespace Components

/-- One field of the components. -/
def step (components : Components) (key : String) (value : Json) : Shape Components := do
  match key with
  | "schemas" => return { components with schemas := ← map Shape.value value }
  | "securitySchemes" =>
    return { components with securitySchemes := ← map (refOr SecurityScheme.ofJson) value }
  | _ => return components

/-- The components. -/
def ofJson (value : Json) : Shape Components :=
  record "Components" ["schemas", "securitySchemes"] step ⟨[], []⟩ value

end Components

namespace Document

/-- The description that says nothing. -/
def blank : Document := ⟨"", none, [], [], none, none⟩

/-- The fields of a description. -/
def fields : List String := ["openapi", "info", "servers", "paths", "components", "security"]

/-- One field of a description. -/
def step (document : Document) (key : String) (value : Json) : Shape Document := do
  match key with
  | "openapi" => return { document with openapi := ← text value }
  | "info" => return { document with info := ← optional Info.ofJson value }
  | "servers" => return { document with servers := ← list Server.ofJson value }
  | "paths" => return { document with paths := ← map PathItem.ofJson value }
  | "components" => return { document with components := ← optional Components.ofJson value }
  | "security" => return { document with security := ← optional requirements value }
  | _ => return document

/-- A description. -/
def ofJson (value : Json) : Shape Document := record "OpenApiDocument" fields step blank value

end Document

end TypedClient
