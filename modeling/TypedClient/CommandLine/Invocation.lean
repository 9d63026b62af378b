import TypedClient.CommandLine.Flag
import TypedClient.Options.Reader
/-!
# Commands

Arguments start with a command: one describes an API, the other generates
a client. Both take files with descriptions, at least one, and a file with
options; flags override those options one by one.
-/

namespace TypedClient

/-- What flags say against options. -/
structure Overrides where
  noTypes : Bool
  noRequest : Bool
  noOperations : Bool
  noDoc : Bool
  mediaPolicy : Option MediaPolicy
  allComponents : Bool
  server : Option String

namespace Overrides

/-- The overrides that flags say. -/
def ofGiven (given : Given) : Overrides where
  noTypes := given.has .noTypes
  noRequest := given.has .noRequest
  noOperations := given.has .noOperations
  noDoc := given.has .noDoc
  mediaPolicy := (given.value? .mediaPolicy).bind Options.policy?
  allComponents := given.has .allComponents
  server := given.value? .server

/-- The options with overrides. What is not overridden stays. -/
def apply (o : Overrides) (options : Options) : Options where
  types := options.types && !o.noTypes
  request := options.request && !o.noRequest
  operations := options.operations && !o.noOperations
  withDoc := options.withDoc && !o.noDoc
  mediaPolicy := o.mediaPolicy.getD options.mediaPolicy
  allComponents := options.allComponents || o.allComponents
  server := o.server.or options.server

end Overrides

/-- What is done with an API. -/
inductive Action where
  /-- It is described, in words or as JSON. -/
  | describe (json : Bool)
  /-- A client is generated, into a file or to the standard output. -/
  | generate (output : Option String)

/-- What arguments ask for. -/
structure Invocation where
  verbose : Bool
  /-- The files with descriptions. -/
  specs : List String
  /-- The file with options. -/
  config : Option String
  overrides : Overrides
  action : Action

namespace Invocation

/-- The flags before a command. -/
def commonFlags : List Flag := [.help, .version, .verbose]

/-- The flags of the command that describes. -/
def describeFlags : List Flag := [.help, .verbose, .spec, .json, .config, .mediaPolicy]

/-- The flags of the command that generates. -/
def generateFlags : List Flag :=
  [.help, .verbose, .spec, .output, .config, .noTypes, .noRequest, .noOperations, .noDoc,
    .mediaPolicy, .allComponents, .server]

/-- What flags ask for, after those before the command. -/
def ofGiven (before given : Given) (action : Action) : Except Stop Invocation :=
  if given.has .spec then
    .ok {
      verbose := before.has .verbose || given.has .verbose
      specs := given.values .spec
      config := given.value? .config
      overrides := Overrides.ofGiven given
      action }
  else .error .usage

/-- What the flags of a command ask for. No words stand between them. -/
def ofCommand (flags : List Flag) (action : Given → Action) (before : Given)
    (args : List String) : Except Stop Invocation :=
  match Flag.scan flags Given.none args with
  | .ok (given, []) => ofGiven before given (action given)
  | .ok _ => .error .usage
  | .error stop => .error stop

/-- The words that one may ask for help about. -/
def isTopic (topic : String) : Bool := topic == "parse" || topic == "generate" || topic == "help"

/-- What arguments ask for. -/
def ofArguments (args : List String) : Except Stop Invocation :=
  match Flag.scan commonFlags Given.none args with
  | .error stop => .error stop
  | .ok (_, []) => .error .usage
  | .ok (before, command :: rest) =>
    if command == "parse" then
      ofCommand describeFlags (fun given => .describe (given.has .json)) before rest
    else if command == "generate" then
      ofCommand generateFlags (fun given => .generate (given.value? .output)) before rest
    else if command == "help" then
      match rest with
      | [] => .error .help
      | [topic] => if isTopic topic then .error .help else .error .usage
      | _ => .error .usage
    else .error .usage

end Invocation

end TypedClient
