import TypedClient.Json.Text
import TypedClient.Identifier
import TypedClient.Text.Blank
/-!
# Request addresses

The address of a request is the body of a template literal: the server
and the path, where each placeholder is replaced by the argument of its
name. Text stands for itself, so what a template literal would read
otherwise is escaped.
-/

namespace TypedClient

namespace Template

/-- Text inside a template literal. -/
def escape : List Char → List Char
  | [] => []
  | '\\' :: rest => '\\' :: '\\' :: escape rest
  | '`' :: rest => '\\' :: '`' :: escape rest
  | '$' :: '\x7b' :: rest => '\\' :: '$' :: '\x7b' :: escape rest
  | c :: rest => c :: escape rest

/-- The argument of a name. -/
def argument (name : String) : String :=
  if Identifier.isIdentifier name then "$\x7bparams." ++ name ++ "\x7d"
  else "$\x7bparams[" ++ Json.quote name ++ "]\x7d"

/-- A part of a path: text, or a placeholder. -/
inductive Part where
  | text (chars : List Char)
  | placeholder (name : List Char)
deriving DecidableEq, Repr

/-- The parts of a path. A placeholder goes from an opening brace to the
next closing one; an opening brace without one is text, as is all after
it. The first argument bounds the number of parts. -/
def partsWithin : Nat → List Char → List Part
  | 0, path => [.text path]
  | bound + 1, path =>
    let before := path.takeWhile (· ≠ '\x7b')
    match path.dropWhile (· ≠ '\x7b') with
    | [] => [.text path]
    | brace :: inside =>
      let name := inside.takeWhile (· ≠ '\x7d')
      match inside.dropWhile (· ≠ '\x7d') with
      | [] => [.text (before ++ brace :: inside)]
      | _ :: rest => .text before :: .placeholder name :: partsWithin bound rest

/-- The parts of a path. -/
def parts (path : String) : List Part := partsWithin path.length path.toList

/-- A part as it is written. -/
def Part.template : Part → String
  | .text chars => String.ofList (escape chars)
  | .placeholder name => argument (String.ofList name)

/-- The body of the template literal for a server and a path. -/
def url (server path : String) : String :=
  String.ofList (escape server.toList) ++ Text.concat ((parts path).map Part.template)

end Template

end TypedClient
