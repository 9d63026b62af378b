import TypedClient.Api.Json
import TypedClient.Api.Summary
import TypedClient.Client.Saving
import TypedClient.CommandLine.Invocation
import TypedClient.Loading
/-!
# Runs of the command line

A run loads options, loads descriptions, extracts the API and does with it
what was asked for. It tells what it does on the standard output as it
goes, except where only the result belongs there. `run` is the whole run
against a host, with the number the process ends with and what it says of
a failure.
-/

namespace TypedClient

/-- What a run was doing when it failed. -/
inductive Activity where
  | loadingOptions (path : String)
  | loadingDocuments
  | extracting
  | generating

/-- What is said of an activity that failed. -/
def Activity.failureText : Activity → String
  | .loadingOptions path => "Failed to load options from " ++ path
  | .loadingDocuments => "Failed to load OpenAPI documents"
  | .extracting => "Failed to parse OpenAPI document"
  | .generating => "Failed to generate client"

/-- A failed run: what it was doing, and the cause. -/
structure Failure where
  activity : Activity
  cause : Error

namespace Failure

/-- A text with each line indented. -/
def indented (text : String) : String :=
  Text.join "\n" ((Text.splitOn '\n' text.toList).map fun line => "    " ++ String.ofList line)

/-- The report of a failed run. -/
def report (failure : Failure) : String :=
  "Error: " ++ failure.activity.failureText ++ "\n\nCaused by:\n" ++
    indented failure.cause.message ++ "\n"

end Failure

/-- How a run ends. -/
structure Exit where
  code : Nat
  /-- What goes to the standard error output. -/
  complaint : Option String

namespace CommandLine

/-- The name and version of the program. -/
def versionText : String := "oapi-tsgen 0.1.0\n"

/-- How the program is used. -/
def usageText : String :=
  "Generate typed TypeScript clients from OpenAPI documents\n\n" ++
  "Usage: oapi-tsgen [-v] parse -s <SPEC>... [--json] [-c <CONFIG>]\n" ++
  "         [--media-type-policy strict|prefer]\n" ++
  "       oapi-tsgen [-v] generate -s <SPEC>... [-o <OUTPUT>] [-c <CONFIG>]\n" ++
  "         [--no-types] [--no-request] [--no-operations] [--no-doc]\n" ++
  "         [--media-type-policy strict|prefer] [--all-components] [--server <SERVER>]\n"

variable {m : Type → Type} [Monad m] (host : Host m)

/-- Does something, which fails with its activity. -/
def during {α : Type} (activity : Activity) (act : ExceptT Error m α) : ExceptT Failure m α :=
  ExceptT.adapt (Failure.mk activity) act

/-- Prints a line. -/
def printLine (s : String) : ExceptT Failure m Unit := host.print (s ++ "\n")

/-- Prints a line for each file. -/
def announce (what : String) : List String → ExceptT Failure m Unit
  | [] => return ()
  | path :: rest => do
    printLine host ("→ " ++ what ++ path)
    announce what rest

/-- The options for a run: those of a file or the defaults, with
overrides. -/
def loadOptions (invocation : Invocation) : ExceptT Failure m Options := do
  match invocation.config with
  | some path =>
    let options ← during (.loadingOptions path) (Options.ofFile host path)
    return invocation.overrides.apply options
  | none => return invocation.overrides.apply Options.default

/-- The source for the files of a run. -/
def loadSource (specs : List String) : ExceptT Failure m Source :=
  during .loadingDocuments (Source.ofFiles host specs)

/-- The API of a source. -/
def extract (source : Source) (options : Options) : ExceptT Failure m Api :=
  during .extracting (MonadExcept.ofExcept (source.api options))

/-- Describes the API of files. -/
def describe (specs : List String) (json verbose : Bool) (options : Options) :
    ExceptT Failure m Unit := do
  if !json then
    announce host "Parsing document: " specs
  let source ← loadSource host specs
  let api ← extract source options
  if json then
    printLine host api.toJson.pretty
  else
    printLine host "\n✓ Parse successful!"
    host.print (api.summary source.document.info verbose)

/-- Generates the client of files and prints it. -/
def generate (specs : List String) (options : Options) : ExceptT Failure m Unit := do
  let source ← loadSource host specs
  let api ← extract source options
  let text ← during .generating (MonadExcept.ofExcept (Client.render api options))
  host.print text

/-- Generates the client of files into a file. -/
def generateFile (specs : List String) (options : Options) (path : String) :
    ExceptT Failure m Unit := do
  announce host "Generating client from: " specs
  printLine host "→ Parsing documents..."
  let source ← loadSource host specs
  let api ← extract source options
  printLine host ("✓ Parsed " ++ Text.decimal api.endpoints.length ++ " operations and " ++
    Text.decimal api.types.size ++ " named types")
  printLine host "→ Rendering client..."
  during .generating (Client.save host api options path)
  printLine host "\n✓ Generation complete!"
  printLine host ("  📄 " ++ path)

/-- Does what was asked for. -/
def execute (invocation : Invocation) : ExceptT Failure m Unit := do
  let options ← loadOptions host invocation
  match invocation.action with
  | .describe json => describe host invocation.specs json invocation.verbose options
  | .generate none => generate host invocation.specs options
  | .generate (some path) => generateFile host invocation.specs options path

/-- A whole run with its arguments. -/
def run (args : List String) : m Exit := do
  match Invocation.ofArguments args with
  | .error .version => host.print versionText; return ⟨0, none⟩
  | .error .help => host.print usageText; return ⟨0, none⟩
  | .error .usage => return ⟨2, some usageText⟩
  | .ok invocation =>
    match ← (execute host invocation).run with
    | .ok () => return ⟨0, none⟩
    | .error failure => return ⟨1, some failure.report⟩

end CommandLine

end TypedClient
