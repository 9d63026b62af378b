import TypedClient.Document.Basic
import TypedClient.Status
import TypedClient.Media
import TypedClient.Registry
/-!
# Endpoints

An endpoint is an operation without references: its parameters by place,
the one body that is sent, and the types of its responses. An `Api` is
what a client is generated from: endpoints in the order of the
description, and the named types they mention.
-/

namespace TypedClient

/-- The type of a parameter: parameters only tell texts and numbers
apart. -/
inductive SimpleType where
  | string
  | number
  | any
deriving DecidableEq, Repr

namespace SimpleType

/-- The type expression of a parameter's type. -/
def typeExpr : SimpleType → TypeExpr
  | .string => .string
  | .number => .number
  | .any => .any

/-- The type of a parameter with a schema. -/
def ofSchema? : Option Schema → SimpleType
  | some (.primitive .string) => .string
  | some (.enum _) => .string
  | some (.primitive .number) => .number
  | _ => .any

end SimpleType

/-- A parameter of an endpoint. -/
structure Argument where
  name : String
  description : Option String
  required : Bool
  type : SimpleType

/-- The body that is sent. -/
structure Body where
  description : Option String
  required : Bool
  mediaType : String
  type : TypeExpr

/-- The response of one status with its media types, in order. -/
structure Outcome where
  status : Status
  description : Option String
  mediaTypes : List (String × TypeExpr)

/-- An operation without references. -/
structure Endpoint where
  path : String
  method : Method
  operationId : Option String
  summary : Option String
  basicAuth : Bool
  pathArguments : List Argument
  headerArguments : List Argument
  queryArguments : List Argument
  body : Option Body
  outcomes : List Outcome

/-- How an endpoint is called in messages. -/
def Endpoint.label (e : Endpoint) : String := e.method.wireName ++ " " ++ e.path

/-- What a client is generated from. -/
structure Api where
  server : String
  endpoints : List Endpoint
  types : Registry

end TypedClient
