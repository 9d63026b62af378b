import TypedClient.Json.Basic
import TypedClient.Decimal.Shortest
import TypedClient.Text.Blank
/-!
# The text of JSON values

`Json.text` writes a value without blanks. `Json.quote` is the text of a
string: a quote, a backslash and the characters below the space are
escaped, and everything else stands for itself. `Json.pretty` writes one
member or item a line.
-/

namespace TypedClient

namespace Json

/-- A lower-case hexadecimal digit. -/
def hexDigit (n : Nat) : Char := if n < 10 then Char.ofNat (48 + n) else Char.ofNat (87 + n)

/-- One character inside quotes. -/
def escapeChar (c : Char) : List Char :=
  if c = '"' then ['\\', '"']
  else if c = '\\' then ['\\', '\\']
  else if c = '\n' then ['\\', 'n']
  else if c = '\r' then ['\\', 'r']
  else if c = '\t' then ['\\', 't']
  else if c = '\x08' then ['\\', 'b']
  else if c = '\x0c' then ['\\', 'f']
  else if c.toNat < 0x20 then
    ['\\', 'u', '0', '0', hexDigit (c.toNat / 16), hexDigit (c.toNat % 16)]
  else [c]

/-- The text of a string. -/
def quote (s : String) : String :=
  String.ofList ('"' :: s.toList.flatMap escapeChar ++ ['"'])

/-- Numbers carry a sign before a positive exponent. -/
def numberNotation : Notation := ⟨true⟩

/-- The text of an integer. -/
def integerText : Int → String
  | .ofNat n => Text.decimal n
  | .negSucc n => "-" ++ Text.decimal (n + 1)

/-- The text of a number. -/
def numberText : Number → String
  | .integer n => integerText n
  | .double x => numberNotation.text x

mutual

/-- The text of a value, without blanks. -/
def text : Json → String
  | .null => "null"
  | .bool true => "true"
  | .bool false => "false"
  | .number n => numberText n
  | .string s => quote s
  | .array items => "[" ++ Text.join "," (itemTexts items) ++ "]"
  | .object members => "\x7b" ++ Text.join "," (memberTexts members) ++ "\x7d"

/-- The texts of items. -/
def itemTexts : List Json → List String
  | [] => []
  | item :: rest => text item :: itemTexts rest

/-- The texts of members. -/
def memberTexts : List (String × Json) → List String
  | [] => []
  | (key, value) :: rest => (quote key ++ ":" ++ text value) :: memberTexts rest

end

/-- The start of a line at a depth: two spaces a level. -/
def lineStart (depth : Nat) : String := "\n" ++ String.ofList (List.replicate (2 * depth) ' ')

/-- Items or members on lines of their own between brackets, which stand
together if there is nothing between them. -/
def bracketed (opening closing : String) (depth : Nat) (lines : List String) : String :=
  if lines.isEmpty then opening ++ closing
  else opening ++ Text.join "," lines ++ lineStart depth ++ closing

mutual

/-- The text of a value at a depth, one member or item a line. -/
def prettyAt (depth : Nat) : Json → String
  | .null => "null"
  | .bool true => "true"
  | .bool false => "false"
  | .number n => numberText n
  | .string s => quote s
  | .array items => bracketed "[" "]" depth (prettyItems (depth + 1) items)
  | .object members => bracketed "\x7b" "\x7d" depth (prettyMembers (depth + 1) members)
termination_by structural value => value

/-- The items, each on its line. -/
def prettyItems (depth : Nat) : List Json → List String
  | [] => []
  | item :: rest => (lineStart depth ++ prettyAt depth item) :: prettyItems depth rest
termination_by structural items => items

/-- The members, each on its line. -/
def prettyMembers (depth : Nat) : List (String × Json) → List String
  | [] => []
  | (key, value) :: rest =>
    (lineStart depth ++ quote key ++ ": " ++ prettyAt depth value) :: prettyMembers depth rest
termination_by structural members => members

end

/-- The text of a value, one member or item a line. -/
def pretty (value : Json) : String := prettyAt 0 value

end Json

end TypedClient
