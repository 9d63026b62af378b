import TypedClient.Client.Declaration
import TypedClient.Client.Template
/-!
# Layout of a client

A client is one text: a header line, then blocks with a blank line before
each. The blocks are the named types, the function that sends requests
with its types, and for each endpoint its types and its function.
-/

namespace TypedClient

namespace Client

/-- The line that every client starts with. -/
def header : String :=
  "// This file is generated by oapi-tsgen and should not be edited by hand.\n"

/-- A block under a blank line. -/
def block (text : String) : String := "\n" ++ text ++ "\n"

/-- The names that the function for requests and its types declare. -/
def requestNames : List String := ["RequestOptions", "RequestParams", "request"]

/-- The function that sends requests, and its types. -/
def requestText : String := Text.join "\n" [
  "export interface RequestOptions \x7b",
  "  signal?: AbortSignal;",
  "  auth?: \x7b username: string; password: string \x7d;",
  "\x7d",
  "",
  "export interface RequestParams \x7b",
  "  method: \"GET\" | \"POST\" | \"PUT\" | \"PATCH\" | \"DELETE\";",
  "  url: string;",
  "  params: \x7b [key: string]: any \x7d;",
  "  options: RequestOptions;",
  "  contentType?: string;",
  "  basicAuth?: boolean;",
  "\x7d",
  "",
  "export async function request(\x7b",
  "  method,",
  "  url,",
  "  params,",
  "  options,",
  "  contentType,",
  "  basicAuth,",
  "\x7d: RequestParams): Promise<\x7b status: number; headers: Headers; data: any \x7d> \x7b",
  "  const requestHeaders: \x7b [key: string]: string \x7d = " ++
    "\x7b ...(params.headers ?? \x7b\x7d) \x7d;",
  "",
  "  if (contentType) \x7b",
  "    requestHeaders[\"Content-Type\"] = contentType;",
  "  \x7d",
  "",
  "  if (basicAuth && options.auth) \x7b",
  "    const \x7b username, password \x7d = options.auth;",
  "    requestHeaders[\"Authorization\"] = " ++
    "`Basic $\x7bbtoa(`$\x7busername\x7d:$\x7bpassword\x7d`)\x7d`;",
  "  \x7d",
  "",
  "  let body: any;",
  "",
  "  if (params.data !== undefined && contentType && contentType.includes(\"json\")) \x7b",
  "    body = JSON.stringify(params.data);",
  "  \x7d else if (params.data !== undefined) \x7b",
  "    body = params.data;",
  "  \x7d",
  "",
  "  const resp = await fetch(url, \x7b",
  "    method,",
  "    body,",
  "    credentials: \"same-origin\",",
  "    signal: options.signal,",
  "    headers: requestHeaders,",
  "  \x7d);",
  "",
  "  const \x7b status, headers \x7d = resp;",
  "  const respContentType = headers.get(\"Content-Type\") ?? \"\";",
  "",
  "  let data: any;",
  "",
  "  if (respContentType.includes(\"json\")) \x7b",
  "    data = await resp.json();",
  "  \x7d else if (respContentType.includes(\"octet-stream\")) \x7b",
  "    data = await resp.blob();",
  "  \x7d else if (respContentType.includes(\"text\")) \x7b",
  "    data = await resp.text();",
  "  \x7d",
  "",
  "  return \x7b status, headers, data \x7d;",
  "\x7d"]

/-- The union of the result types, one a line. -/
def resultUnion (name : String) (variants : List String) : String :=
  "export type " ++ name ++ " =" ++ Text.concat (variants.map fun v => "\n  | " ++ v) ++ ";"

/-- The declaration of the type of results. -/
def resultText (b : Binding) : String :=
  if b.variants.isEmpty then (NamedType.mk b.resultType none).declaration b.names.result
  else resultUnion b.names.result (b.variants.map (·.1))

/-- The function of an endpoint, after its comment. -/
def functionText (server : String) (withDoc : Bool) (b : Binding) : String :=
  let e := b.endpoint
  let hasQuery := !e.queryArguments.isEmpty
  (match Binding.documented withDoc e.summary with
    | some text => Text.comment text 0
    | none => "") ++
  "export async function " ++ b.names.function ++ "(\n" ++
  "  params: " ++ b.names.params ++ ",\n" ++
  "  options: RequestOptions = \x7b\x7d\n" ++
  "): Promise<" ++ b.names.result ++ "> \x7b" ++
  (if hasQuery then
    "\n  const query = params.query ? " ++
      "`?$\x7bnew URLSearchParams(params.query as any)\x7d` : \"\";"
    else "") ++
  "\n  const response = await request(\x7b\n" ++
  "    method: \"" ++ e.method.wireName ++ "\",\n" ++
  "    url: `" ++ Template.url server e.path ++ (if hasQuery then "$\x7bquery\x7d" else "") ++
    "`,\n" ++
  "    params,\n" ++
  "    options," ++
  (match e.body with
    | some body => "\n    contentType: " ++ Json.quote body.mediaType ++ ","
    | none => "") ++
  (if e.basicAuth then "\n    basicAuth: true," else "") ++
  "\n  \x7d);\n" ++
  "\n  return response as " ++ b.names.result ++ ";\n\x7d"

/-- The block of an endpoint: its types and its function. -/
def bindingText (server : String) (withDoc : Bool) (b : Binding) : String :=
  (NamedType.mk b.params none).declaration b.names.params ++ "\n\n" ++
  resultText b ++
  Text.concat (b.variants.map fun (name, named) => "\n\n" ++ named.declaration name) ++ "\n\n" ++
  functionText server withDoc b

/-- The blocks of the named types. -/
def typesSection (types : Registry) : String :=
  Text.concat (types.definitions.map fun (name, named) => block (named.declaration name))

/-- The block of the function for requests. -/
def requestSection : String := block requestText

/-- The blocks of the endpoints. -/
def operationsSection (server : String) (withDoc : Bool) (bindings : List Binding) : String :=
  Text.concat (bindings.map fun b => block (bindingText server withDoc b))

end Client

end TypedClient
