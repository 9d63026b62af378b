import TypedClient.Client.Layout
/-!
# Putting a client together

`Client.render` checks that no name is declared for two things and lays
the chosen sections out. A name may be declared again with the same type;
the names of functions are all different.
-/

namespace TypedClient

namespace Client

/-- What has been declared by the endpoints so far. -/
structure Declared where
  functions : List String
  types : Registry

/-- Nothing declared. -/
def Declared.none : Declared := ⟨[], Registry.empty⟩

variable (api : Api) (options : Options)

/-- Declares the function of an endpoint. -/
def declareFunction (name : String) (d : Declared) : Except Error Declared :=
  if d.functions.contains name || api.types.contains name then .error (.conflicting name)
  else .ok { d with functions := name :: d.functions }

/-- Declares a type of an endpoint. Named types and, if it is there, the
function for requests with its types have taken their names before. -/
def declareType (name : String) (named : NamedType) (d : Declared) : Except Error Declared :=
  if api.types.contains name || (options.request && requestNames.contains name) then
    .error (.conflicting name)
  else
    match d.types.register name named with
    | .ok types => .ok { d with types }
    | .error e => .error e

/-- Declares types one after another. -/
def declareTypes : List (String × NamedType) → Declared → Except Error Declared
  | [], d => .ok d
  | (name, named) :: rest, d =>
    match declareType api options name named d with
    | .ok d => declareTypes rest d
    | .error e => .error e

/-- Declares the function and the types of an endpoint. -/
def declareBinding (b : Binding) (d : Declared) : Except Error Declared :=
  match declareFunction api b.names.function d with
  | .ok d => declareTypes api options b.typeDeclarations d
  | .error e => .error e

/-- Declares what endpoints declare, one after another. -/
def declareBindings : List Binding → Declared → Except Error Declared
  | [], d => .ok d
  | b :: rest, d =>
    match declareBinding api options b d with
    | .ok d => declareBindings rest d
    | .error e => .error e

/-- The declarations of the endpoints of an API. -/
def bindings : List Binding := api.endpoints.map (Binding.ofEndpoint options.withDoc)

/-- The first conflict between declarations, if there is one. -/
def check : Except Error Unit :=
  let taken := if options.request then requestNames.find? api.types.contains else none
  match taken with
  | some name => .error (.conflicting name)
  | none =>
    if options.operations then
      match declareBindings api options (bindings api options) Declared.none with
      | .ok _ => .ok ()
      | .error e => .error e
    else .ok ()

/-- The chosen sections under the header. -/
def layout : String :=
  header ++ (if options.types then typesSection api.types else "") ++
  (if options.request then requestSection else "") ++
  (if options.operations then
    operationsSection api.server options.withDoc (bindings api options)
    else "")

/-- The client of an API, or the first conflict. Without any section it is
empty. -/
def render : Except Error String :=
  if !options.types && !options.request && !options.operations then .ok ""
  else
    match check api options with
    | .ok () => .ok (layout api options)
    | .error e => .error e

end Client

end TypedClient
