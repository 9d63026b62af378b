import TypedClient.Document.Reader
import TypedClient.Api.Basic
import TypedClient.Options.Basic
import TypedClient.Reference
/-!
# Extraction of endpoints

One walk over the paths of a description turns each operation into an
endpoint. All share one registry of named types. Within an operation the
order is: authentication, parameters, body, responses; the first failure
ends the run.
-/

namespace TypedClient

/-- A description as a value, where pointers lead, and as it was read. -/
structure Source where
  raw : Json
  document : Document

namespace Source

/-- The source for a value, if it has the shape of a description. -/
def ofJson (raw : Json) : Except Error Source :=
  match Document.ofJson raw with
  | .ok document => .ok ⟨raw, document⟩
  | .error shape => .error (.parse (.document shape))

variable (source : Source) (options : Options)

/-- The computation that fails or succeeds without touching the
registry. -/
def settle {α : Type} (result : Except Error α) : Synthesis α :=
  match result with
  | .ok value => return value
  | .error e => throw e

/-- The type of a schema, if there is one. -/
def typeOf : Option Schema → Synthesis TypeExpr
  | some schema => Synthesis.synthesize source.raw options.withDoc schema
  | none => return .any

/-- The parameters with one more: in place of that with its name and
location, or at the end. -/
def place (parameter : Parameter) : List Parameter → List Parameter
  | [] => [parameter]
  | p :: rest =>
    if p.name = parameter.name ∧ p.location = parameter.location then parameter :: rest
    else p :: place parameter rest

/-- Parameters placed one after another, with their references
followed. -/
def placeAll : List Parameter → List (RefOr Parameter) → Except Error (List Parameter)
  | placed, [] => .ok placed
  | placed, p :: rest =>
    match p.follow source.raw Parameter.ofJson with
    | .ok parameter => placeAll (place parameter placed) rest
    | .error e => .error e

/-- The parameters of an operation: those of its path, overridden by its
own. -/
def parameters (item : PathItem) (operation : Operation) : Except Error (List Parameter) :=
  placeAll source [] (item.parameters ++ operation.parameters)

/-- The argument for a parameter. Parameters in the path are always
required. -/
def argument (p : Parameter) : Argument :=
  ⟨p.name, p.description, p.required || p.location == .path, SimpleType.ofSchema? p.schema⟩

/-- The arguments at a location. -/
def argumentsAt (location : Location) (parameters : List Parameter) : List Argument :=
  (parameters.filter (·.location == location)).map argument

/-- Whether one of the named schemes is basic authentication. Undeclared
names are passed over. -/
def anyBasic (schemes : List (String × RefOr SecurityScheme)) : List String → Except Error Bool
  | [] => .ok false
  | name :: rest =>
    match schemes.find? fun entry => entry.1 == name with
    | none => anyBasic schemes rest
    | some (_, scheme) =>
      match scheme.follow source.raw SecurityScheme.ofJson with
      | .error e => .error e
      | .ok scheme => if scheme.isBasic then .ok true else anyBasic schemes rest

/-- The requirements that hold for an operation: its own list, even an
empty one, or that of the description. -/
def requirements (operation : Operation) : List Requirement :=
  match operation.security with
  | some list => list
  | none => source.document.security.getD []

/-- Whether an operation asks for basic authentication. -/
def needsBasic (operation : Operation) : Except Error Bool :=
  match source.document.components with
  | none => .ok false
  | some components =>
    anyBasic source components.securitySchemes
      ((source.requirements operation).flatMap fun requirement => requirement.map (·.1))

/-- The entry of a body that is sent, with the class that it is sent as: the
first for JSON, or else for text, or else of all. -/
def bodyEntry? (content : Content) : Option ((String × Option Schema) × Media) :=
  match Media.first? .json content with
  | some entry => some (entry, .json)
  | none =>
    match Media.first? .text content with
    | some entry => some (entry, .text)
    | none => content.head?.map fun entry => (entry, .other)

/-- The type of a body of some class. Only JSON is typed by its schema. -/
def bodyType (kind : Media) (schema : Option Schema) : Synthesis TypeExpr :=
  match kind with
  | .json => source.typeOf options schema
  | .text => return .string
  | _ => return .any

/-- The body that is sent, if any media type is declared. -/
def body (b : RequestBody) : Synthesis (Option Body) :=
  match bodyEntry? b.content with
  | none => return none
  | some ((mediaType, schema), kind) => do
    let type ← source.bodyType options kind schema
    return some ⟨b.description, b.required, mediaType, type⟩

/-- The types of media types, in order. -/
def mediaTypes : Content → Synthesis (List (String × TypeExpr))
  | [] => return []
  | (mediaType, schema) :: rest => do
    let type ← source.typeOf options schema
    let others ← mediaTypes rest
    return (mediaType, type) :: others

/-- The outcome for a response. -/
def outcome (label : String) (status : Status) (response : Response) : Synthesis Outcome := do
  if 1 < response.content.length && options.mediaPolicy == .strict then
    throw (.unsupportedShape label status.key (response.content.map (·.1)))
  else
    return ⟨status, response.description, ← source.mediaTypes options response.content⟩

/-- The outcomes of an operation, in order. -/
def outcomes (label : String) : List (String × RefOr Response) → Synthesis (List Outcome)
  | [] => return []
  | (key, response) :: rest => do
    let response ← settle (response.follow source.raw Response.ofJson)
    let first ← source.outcome options label (Status.ofKey key) response
    let others ← outcomes label rest
    return first :: others

/-- The body of an operation. -/
def operationBody (operation : Operation) : Synthesis (Option Body) :=
  match operation.requestBody with
  | none => return none
  | some b => do source.body options (← settle (b.follow source.raw RequestBody.ofJson))

/-- The endpoint for an operation. -/
def endpoint (path : String) (method : Method) (item : PathItem) (operation : Operation) :
    Synthesis Endpoint := do
  let basicAuth ← settle (source.needsBasic operation)
  let parameters ← settle (source.parameters item operation)
  let body ← source.operationBody options operation
  let outcomes ← source.outcomes options (method.wireName ++ " " ++ path) operation.responses
  return {
    path, method
    operationId := operation.operationId
    summary := operation.summary.or operation.description
    basicAuth
    pathArguments := argumentsAt .path parameters
    headerArguments := argumentsAt .header parameters
    queryArguments := argumentsAt .query parameters
    body, outcomes }

/-- The operations of a path, in the order of the methods. -/
def operationsOf (item : PathItem) : List (Method × Operation) :=
  Method.all.filterMap fun method => (item.operation? method).map fun o => (method, o)

/-- The endpoints of a path. -/
def pathEndpoints (path : String) (item : PathItem) :
    List (Method × Operation) → Synthesis (List Endpoint)
  | [] => return []
  | (method, operation) :: rest => do
    let first ← source.endpoint options path method item operation
    let others ← pathEndpoints path item rest
    return first :: others

/-- The endpoints of paths, in order. -/
def endpoints : List (String × PathItem) → Synthesis (List Endpoint)
  | [] => return []
  | (path, item) :: rest => do
    let first ← source.pathEndpoints options path item (operationsOf item)
    let others ← endpoints rest
    return first ++ others

/-- Registers the component schemas of some names. -/
def registerComponents : List String → Synthesis Unit
  | [] => return ()
  | name :: rest => do
    let _ ← Synthesis.reference source.raw options.withDoc (Pointer.ofSchemaName name)
    registerComponents rest

/-- The names of the component schemas. -/
def schemaNames : List String :=
  match source.document.components with
  | some components => components.schemas.map (·.1)
  | none => []

/-- What stands before every path: the option, the first server, or
nothing. -/
def server : String :=
  match options.server with
  | some url => url
  | none =>
    match source.document.servers with
    | first :: _ => first.url
    | [] => ""

/-- All endpoints, and all component schemas if they are asked for. -/
def extraction : Synthesis (List Endpoint) := do
  let endpoints ← source.endpoints options source.document.paths
  if options.allComponents then
    source.registerComponents options source.schemaNames
  return endpoints

/-- The API of a description. Each run starts with an empty registry. -/
def api : Except Error Api :=
  match (source.extraction options).run Registry.empty with
  | (.ok endpoints, types) => .ok ⟨source.server options, endpoints, types⟩
  | (.error e, _) => .error e

end Source

end TypedClient
