import TypedClient.Error
import TypedClient.Path
/-!
# Telling formats apart

The extension of a file decides its format, whatever the case of its
letters. Otherwise the first character that is not blank does: a brace or
bracket starts JSON, and everything else is YAML.
-/

namespace TypedClient

namespace Format

/-- The format of a text by its first character. -/
def ofText (text : String) : Format :=
  match Text.trimStart text.toList with
  | '\x7b' :: _ => .json
  | '[' :: _ => .json
  | _ => .yaml

/-- The format that an extension stands for. -/
def ofExtension? (extension : String) : Option Format :=
  if Text.equalIgnoringCase extension "json" then some .json
  else if Text.equalIgnoringCase extension "yaml" || Text.equalIgnoringCase extension "yml" then
    some .yaml
  else none

/-- The format of a file by its path and its text. -/
def ofFile (path text : String) : Format :=
  match (Path.extension? path).bind ofExtension? with
  | some format => format
  | none => ofText text

end Format

end TypedClient
