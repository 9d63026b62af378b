import TypedClient.Document.Basic
import TypedClient.Status
/-!
# Names of declarations

The function for an operation is called by a verb for its method and the
words of its path, placeholders left out. `Names` holds the function's
name and those of its types. Names are not made different: equal names
are found when the client is put together.
-/

namespace TypedClient

namespace Naming

/-- The verb for a method. -/
def verb : Method → String
  | .get => "get"
  | .post => "create"
  | .put => "replace"
  | .patch => "update"
  | .delete => "delete"

/-- The segments of a path. -/
def segments (path : String) : List (List Char) :=
  (Text.splitOn '/' path.toList).filter (!·.isEmpty)

/-- Whether a segment stands for a value. -/
def isPlaceholder (segment : List Char) : Bool :=
  segment.head? == some '\x7b' && segment.getLast? == some '\x7d'

/-- The segment without one `s` at its end, if something is left. -/
def singular (segment : List Char) : List Char :=
  if segment.getLast? = some 's' && 1 < segment.length then segment.dropLast else segment

/-- A word with its first letter in upper and the others in lower case. -/
def capitalized : List Char → List Char
  | [] => []
  | c :: rest => c.toUpper :: rest.map Char.toLower

/-- The words of a segment, each capitalised. -/
def segmentName (segment : List Char) : List Char :=
  (Text.words Char.isAlphanum segment).flatMap capitalized

/-- Whether a segment before others names a single thing: the segment
before a placeholder at the end of what is read, and the last segment of
what is changed. -/
def namesOne (method : Method) (after : List (List Char)) : Bool :=
  match method, after with
  | .get, [last] => isPlaceholder last
  | .get, _ => false
  | _, after => after.isEmpty

/-- The words of the segments of a path. -/
def pathName (method : Method) : List (List Char) → List Char
  | [] => []
  | segment :: after =>
    (if isPlaceholder segment then []
      else segmentName (if namesOne method after then singular segment else segment)) ++
    pathName method after

/-- The name of the function for an operation. -/
def functionName (method : Method) (path : String) : String :=
  verb method ++ String.ofList (pathName method (segments path))

/-- The text with its first letter in upper case. -/
def upperFirst (name : String) : String :=
  match name.toList with
  | [] => ""
  | c :: rest => String.ofList (c.toUpper :: rest)

end Naming

/-- The names of the declarations for an operation. -/
structure Names where
  function : String
  /-- What the names of the types start with. -/
  base : String

namespace Names

/-- The names for a method and a path. -/
def ofPath (method : Method) (path : String) : Names :=
  ⟨Naming.functionName method path, Naming.upperFirst (Naming.functionName method path)⟩

/-- The name of the type of arguments. -/
def params (n : Names) : String := n.base ++ "Params"

/-- The name of the type of results. -/
def result (n : Names) : String := n.base ++ "Result"

/-- The name of the result type for one status. -/
def variant (n : Names) (status : Status) : String := n.base ++ status.word ++ "Result"

end Names

end TypedClient
