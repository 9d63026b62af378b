import TypedClient.Api.Basic
import TypedClient.Naming
/-!
# The summary of an API

What a reader is told of an API: where it is, how much it holds, the
function of each endpoint, and the names of the types. In detail, each
endpoint comes with the number of its parameters and its statuses.
-/

namespace TypedClient

namespace Summary

/-- A line of text. -/
def line (s : String) : String := s ++ "\n"

/-- The lines for what a description says of itself. -/
def infoLines : Option Info → String
  | some info => line ("  Title: " ++ info.title) ++ line ("  Version: " ++ info.version)
  | none => ""

/-- The name of a server. -/
def serverText (url : String) : String := if url.isEmpty then "(relative)" else url

/-- The lines for the size of an API. -/
def countLines (api : Api) : String :=
  line ("  Server: " ++ serverText api.server) ++
  line ("  Operations: " ++ Text.decimal api.endpoints.length) ++
  line ("  Named types: " ++ Text.decimal api.types.size)

/-- The lines for the details of an endpoint. -/
def detailLines (e : Endpoint) : String :=
  line ("    Params: " ++ Text.decimal e.pathArguments.length ++ " path, " ++
    Text.decimal e.queryArguments.length ++ " query, " ++
    Text.decimal e.headerArguments.length ++ " header" ++
    (if e.body.isSome then ", body" else "")) ++
  line ("    Responses: " ++ Text.join ", " (e.outcomes.map fun o => o.status.key))

/-- The lines for an endpoint. -/
def endpointLines (detailed : Bool) (e : Endpoint) : String :=
  line ("  • " ++ e.label ++ " → " ++ (Names.ofPath e.method e.path).function) ++
  (if detailed then detailLines e else "")

/-- The lines for the names of types, if there are any. -/
def typeLines (types : Registry) : String :=
  if types.size == 0 then ""
  else
    line "" ++ line "Named types:" ++
    Text.concat (types.definitions.map fun (name, _) => line ("  • " ++ name))

end Summary

/-- The summary of an API. -/
def Api.summary (api : Api) (info : Option Info) (detailed : Bool) : String :=
  Summary.infoLines info ++ Summary.countLines api ++
  Summary.line "" ++ Summary.line "Operations:" ++
  Text.concat (api.endpoints.map (Summary.endpointLines detailed)) ++
  Summary.typeLines api.types

end TypedClient
