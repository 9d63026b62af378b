import TypedClient.Schema.Basic
/-!
# Descriptions of an API

The parts of a description that a client depends on: servers, paths with
their operations, component schemas and security schemes. Parameters,
bodies, responses and security schemes stand in place or are referred to.
Maps keep the order of the description.
-/

namespace TypedClient

/-- The HTTP methods that have bindings. -/
inductive Method where
  | get
  | post
  | put
  | patch
  | delete
deriving DecidableEq, Repr

namespace Method

/-- All methods, in the order they are visited. -/
def all : List Method := [.get, .post, .put, .patch, .delete]

/-- The key of a method in a path item. -/
def key : Method → String
  | .get => "get"
  | .post => "post"
  | .put => "put"
  | .patch => "patch"
  | .delete => "delete"

/-- The method as it is sent. -/
def wireName : Method → String
  | .get => "GET"
  | .post => "POST"
  | .put => "PUT"
  | .patch => "PATCH"
  | .delete => "DELETE"

/-- Whether a method may change what it is applied to. -/
def isMutating : Method → Bool
  | .get => false
  | _ => true

end Method

/-- An item in place, or a reference to one. -/
inductive RefOr (α : Type) where
  | reference (pointer : String)
  | item (value : α)

/-- Where a parameter is sent. -/
inductive Location where
  | path
  | query
  | header
  | cookie
deriving DecidableEq, Repr

/-- A parameter. -/
structure Parameter where
  name : String
  location : Location
  description : Option String
  required : Bool
  schema : Option Schema

/-- The media types of a body with their schemas, in order. -/
abbrev Content := List (String × Option Schema)

/-- A request body. -/
structure RequestBody where
  description : Option String
  content : Content
  required : Bool

/-- A response. -/
structure Response where
  description : Option String
  content : Content

/-- A security scheme. -/
structure SecurityScheme where
  kind : String
  scheme : Option String

/-- Whether a scheme is basic authentication. -/
def SecurityScheme.isBasic (s : SecurityScheme) : Bool :=
  s.kind == "http" &&
    match s.scheme with
    | some name => Text.equalIgnoringCase name "basic"
    | none => false

/-- The schemes that must hold together, with their scopes. -/
abbrev Requirement := List (String × List String)

/-- An operation. -/
structure Operation where
  operationId : Option String
  summary : Option String
  description : Option String
  parameters : List (RefOr Parameter)
  requestBody : Option (RefOr RequestBody)
  responses : List (String × RefOr Response)
  security : Option (List Requirement)

/-- The operations of a path, and the parameters that all of them have. -/
structure PathItem where
  get : Option Operation
  post : Option Operation
  put : Option Operation
  patch : Option Operation
  delete : Option Operation
  parameters : List (RefOr Parameter)

/-- The operation of a method. -/
def PathItem.operation? (item : PathItem) : Method → Option Operation
  | .get => item.get
  | .post => item.post
  | .put => item.put
  | .patch => item.patch
  | .delete => item.delete

/-- What an API is called. -/
structure Info where
  title : String
  version : String
  description : Option String

/-- A server. -/
structure Server where
  url : String
  description : Option String

/-- The parts that descriptions refer to. Schemas stay unread: they are
reached through pointers. -/
structure Components where
  schemas : List (String × Json)
  securitySchemes : List (String × RefOr SecurityScheme)

/-- A description of an API. -/
structure Document where
  openapi : String
  info : Option Info
  servers : List Server
  paths : List (String × PathItem)
  components : Option Components
  security : Option (List Requirement)

end TypedClient
