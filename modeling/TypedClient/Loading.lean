import TypedClient.Extraction
import TypedClient.Format
import TypedClient.Host
import TypedClient.Json.Reader
import TypedClient.Merge
import TypedClient.Options.Reader
import TypedClient.Yaml.Reader
/-!
# Loading descriptions and options

A description is read from one text, or from several that are merged. The
texts of files are read in order, and the first that fails ends the
loading. Options are read from one file.
-/

namespace TypedClient

/-- The value that a text writes in a format. -/
def readText (format : Format) (text : String) : Except Error Json :=
  let value := match format with
    | .json => Json.read? text
    | .yaml => Yaml.read? text
  match value with
  | some value => .ok value
  | none => .error (.syntaxError format)

namespace Source

/-- The source for a single text. -/
def ofText (format : Format) (text : String) : Except Error Source :=
  match readText format text with
  | .ok raw => ofJson raw
  | .error _ => .error (.parse (.text format))

/-- The source for documents that are merged. -/
def ofDocuments (documents : List Json) : Except Error Source :=
  match merge documents with
  | .ok raw => ofJson raw
  | .error e => .error e

end Source

/-- The options that a YAML text writes. -/
def Options.ofText (text : String) : Except Error Options :=
  match Options.ofYaml? text with
  | some options => .ok options
  | none => .error (.syntaxError .yaml)

/-- The value that the text of a file writes. -/
def readFileText (path text : String) : Except Error Json :=
  let format := Format.ofFile path text
  match readText format text with
  | .ok value => .ok value
  | .error _ => .error (.parse (.file path format))

variable {m : Type → Type} [Monad m] (host : Host m)

/-- The value that a file writes. -/
def readFile (path : String) : ExceptT Error m Json := do
  match ← host.read path with
  | .ok text => MonadExcept.ofExcept (readFileText path text)
  | .error cause => throw (.parse (.unreadable path cause))

/-- The source for files that are merged. -/
def Source.ofFiles (paths : List String) : ExceptT Error m Source := do
  MonadExcept.ofExcept (ofDocuments (← paths.mapM (readFile host)))

/-- The options that a file writes. -/
def Options.ofFile (path : String) : ExceptT Error m Options := do
  match ← host.read path with
  | .ok text =>
    match Options.ofYaml? text with
    | some options => return options
    | none => throw (.parse (.optionsFile path))
  | .error cause => throw (.parse (.optionsUnreadable path cause))

end TypedClient
