import TypedClient.Error
import TypedClient.Identifier
/-!
# Pointers into a document

A pointer `#/a/b` names a place in a document by the keys and positions
on the way from the root. In a key, a tilde is written `~0` and a slash
`~1`. `Pointer.resolve?` walks the way; `Pointer.typeName` is the name
that a schema gets from the last key of its pointer.
-/

namespace TypedClient

namespace Pointer

/-- A key as one token of a pointer. -/
def escape : List Char → List Char
  | [] => []
  | c :: rest =>
    if c = '~' then '~' :: '0' :: escape rest
    else if c = '/' then '~' :: '1' :: escape rest
    else c :: escape rest

/-- The key that a token stands for. -/
def unescape : List Char → List Char
  | [] => []
  | '~' :: '0' :: rest => '~' :: unescape rest
  | '~' :: '1' :: rest => '/' :: unescape rest
  | c :: rest => c :: unescape rest

/-- A key as one token of a pointer. -/
def escapeToken (key : String) : String := String.ofList (escape key.toList)

/-- The tokens of a pointer after its number sign; none for the root.
There are none at all if it does not start with the sign and a slash. -/
def tokens? (pointer : String) : Option (List (List Char)) :=
  match pointer.toList with
  | ['#'] => some []
  | '#' :: '/' :: rest => some (Text.splitOn '/' rest)
  | _ => none

/-- The position that a token stands for: digits, after a plus sign if
there is one. -/
def position? (token : List Char) : Option Nat :=
  let digits := match token with
    | '+' :: rest => rest
    | rest => rest
  if digits.isEmpty || !digits.all Char.isDigit then none else some (Text.decimalValue digits)

/-- One step from a value. -/
def step? (token : List Char) : Json → Option Json
  | .object members => Json.find? (String.ofList (unescape token)) members
  | .array items =>
    match position? (unescape token) with
    | some i => items[i]?
    | none => none
  | _ => none

/-- The steps along tokens. -/
def walk? : List (List Char) → Json → Option Json
  | [], value => some value
  | token :: rest, value =>
    match step? token value with
    | some next => walk? rest next
    | none => none

/-- The value that a pointer leads to in a document. -/
def resolve? (document : Json) (pointer : String) : Option Json :=
  match tokens? pointer with
  | some tokens => walk? tokens document
  | none => none

/-- The value that a pointer leads to, or that it leads nowhere. -/
def resolve (document : Json) (pointer : String) : Except Error Json :=
  match resolve? document pointer with
  | some value => .ok value
  | none => .error (.unresolved pointer)

/-- The part of a text after its last slash, or all of it. -/
def lastSegment (pointer : String) : List Char :=
  (Text.splitOn '/' pointer.toList).getLast?.getD []

/-- The key that the last token of a pointer stands for. -/
def lastKey (pointer : String) : String := String.ofList (unescape (lastSegment pointer))

/-- The name of the type for a pointer. -/
def typeName (pointer : String) : String := Identifier.sanitize (lastKey pointer)

/-- The pointer to a component schema. -/
def ofSchemaName (name : String) : String := "#/components/schemas/" ++ escapeToken name

end Pointer

end TypedClient
