/-!
# Identifiers

An identifier starts with an ASCII letter, an underscore or a dollar sign
and goes on with these and ASCII digits. `Identifier.sanitize` makes one
of any text.
-/

namespace TypedClient

namespace Identifier

/-- The characters of an identifier. -/
def isPart (c : Char) : Bool := c.isAlphanum || c == '_' || c == '$'

/-- The characters an identifier starts with. -/
def isStart (c : Char) : Bool := c.isAlpha || c == '_' || c == '$'

/-- Whether a text is an identifier. -/
def isIdentifier (name : String) : Bool :=
  match name.toList with
  | [] => false
  | c :: rest => isStart c && rest.all isPart

/-- The text with an underscore for each character that no identifier has,
and one in front of a digit or of nothing. -/
def sanitize (name : String) : String :=
  let chars := name.toList.map fun c => if isPart c then c else '_'
  match chars with
  | [] => "_"
  | c :: rest => if c.isDigit then String.ofList ('_' :: c :: rest) else String.ofList (c :: rest)

end Identifier

end TypedClient
