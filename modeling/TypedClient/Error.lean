import TypedClient.Json.Text
import TypedClient.Text.Quoted
/-!
# What can go wrong

Every failure is a cause, and `Error.message` is the one place that words
it. `ShapeError` says how a JSON value fails to be the record, list or
text that a description asks for; `FileError` what an access to a file
met. Of a text that is no JSON or no YAML only that is said.
-/

namespace TypedClient

/-- The two notations of a description. -/
inductive Format where
  | json
  | yaml
deriving DecidableEq, Repr

namespace Format

/-- The short name of a format. -/
def name : Format → String
  | .json => "json"
  | .yaml => "yaml"

/-- The name of a format in messages. -/
def title : Format → String
  | .json => "JSON"
  | .yaml => "YAML"

/-- What is said of a text that is no value of its format. -/
def syntaxMessage (format : Format) : String := format.title ++ " error:"

end Format

/-- How a value fails to have an expected shape. -/
inductive ShapeError where
  /-- The value is of another kind. -/
  | unexpected (found : Json) (want : String)
  /-- A required field is absent. -/
  | missing (field : String)
  /-- A record written as an array has more items than fields. -/
  | tooLong (length : Nat)
  /-- A record written as an array ends before a required field. -/
  | tooShort (length : Nat) (record : String) (fields : Nat)
  /-- The value is neither a reference nor the item asked for. -/
  | noVariant

namespace ShapeError

/-- A value as a message names it. -/
def foundText : Json → String
  | .null => "null"
  | .bool true => "boolean `true`"
  | .bool false => "boolean `false`"
  | .number (.integer n) => "integer `" ++ Json.integerText n ++ "`"
  | .number (.double x) => "floating point `" ++ Json.numberNotation.text x ++ "`"
  | .string s => "string " ++ Text.quoted s
  | .array _ => "sequence"
  | .object _ => "map"

/-- The wording of a shape error. -/
def message : ShapeError → String
  | .unexpected found want => "invalid type: " ++ foundText found ++ ", expected " ++ want
  | .missing field => "missing field `" ++ field ++ "`"
  | .tooLong length =>
    "invalid length " ++ Text.decimal length ++ ", expected fewer elements in array"
  | .tooShort length record fields =>
    "invalid length " ++ Text.decimal length ++ ", expected " ++ record ++ " with " ++
      Text.decimal fields ++ " elements"
  | .noVariant => "data did not match any variant of untagged enum RefOr"

end ShapeError

/-- What an access to a file met. -/
inductive FileError where
  | notFound
  | alreadyExists
  | notADirectory
  | isADirectory
  /-- The content is not text. -/
  | notText
  /-- Any other failure, as the system words it. -/
  | other (message : String)
deriving DecidableEq

namespace FileError

/-- The wording of a file error. -/
def message : FileError → String
  | .notFound => "No such file or directory (os error 2)"
  | .alreadyExists => "File exists (os error 17)"
  | .notADirectory => "Not a directory (os error 20)"
  | .isADirectory => "Is a directory (os error 21)"
  | .notText => "stream did not contain valid UTF-8"
  | .other text => text

end FileError

/-- Why a description or an options file cannot be used. -/
inductive ParseError where
  /-- The text of the one document is no value of its format. -/
  | text (format : Format)
  /-- The document does not have the shape of a description. -/
  | document (shape : ShapeError)
  /-- What a pointer leads to has not the shape that its place asks for. -/
  | target (pointer : String) (shape : ShapeError)
  | noDocuments
  | rootNotObject
  | unreadable (path : String) (cause : FileError)
  | file (path : String) (format : Format)
  | optionsUnreadable (path : String) (cause : FileError)
  | optionsFile (path : String)

namespace ParseError

/-- The wording of a parse error. -/
def message : ParseError → String
  | .text format => "Failed to parse OpenAPI " ++ format.title ++ ": " ++ format.syntaxMessage
  | .document shape => "Invalid OpenAPI document: " ++ shape.message
  | .target pointer shape => "Failed to parse value at " ++ pointer ++ ": " ++ shape.message
  | .noDocuments => "No OpenAPI documents to merge"
  | .rootNotObject => "OpenAPI document root must be an object"
  | .unreadable path cause => "Failed to read OpenAPI file " ++ path ++ ": " ++ cause.message
  | .file path format => "Failed to parse " ++ path ++ ": " ++ format.syntaxMessage
  | .optionsUnreadable path cause =>
    "Failed to read options file " ++ Text.quotedPath path ++ ": " ++ cause.message
  | .optionsFile path =>
    "Failed to parse options file " ++ Text.quotedPath path ++ ": " ++ Format.yaml.syntaxMessage

end ParseError

/-- Why a client cannot be put on disk. -/
inductive OutputError where
  | directory (cause : FileError)
  | file (path : String) (cause : FileError)

namespace OutputError

/-- The wording of an output error. -/
def message : OutputError → String
  | .directory cause => "Failed to create output directory: " ++ cause.message
  | .file path cause => "Failed to write " ++ path ++ ": " ++ cause.message

end OutputError

/-- The causes of failure of a run. -/
inductive Error where
  /-- A pointer leads nowhere, or a chain of references to itself. -/
  | unresolved (pointer : String)
  /-- One name stands for two types, or for a type and a declaration. -/
  | conflicting (name : String)
  /-- A status declares several media types where only one is allowed. -/
  | unsupportedShape (operation : String) (status : String) (mediaTypes : List String)
  | parse (cause : ParseError)
  | output (cause : OutputError)
  /-- A text is no value of its format. -/
  | syntaxError (format : Format)

namespace Error

/-- The wording of an error. -/
def message : Error → String
  | .unresolved pointer => "Unresolved reference: " ++ pointer
  | .conflicting name => "Conflicting definitions registered for type " ++ "\"" ++ name ++ "\""
  | .unsupportedShape operation status mediaTypes =>
    "Unsupported response shape: " ++ operation ++ " declares " ++
      Text.decimal mediaTypes.length ++ " media types for status " ++ status ++ " (" ++
      Text.join ", " mediaTypes ++ ")"
  | .parse cause => "Parse error: " ++ cause.message
  | .output cause => "Generation error: " ++ cause.message
  | .syntaxError format => format.syntaxMessage

end Error

end TypedClient
