/-!
# Places in a YAML text

A `Cursor` is what is left of a text, with the number of characters before
it and its line and column. A line ends at a line feed, a carriage return,
both together, or one of three separators outside ASCII.
-/

namespace TypedClient

namespace Yaml

/-- A place in a text. -/
structure Cursor where
  rest : List Char
  index : Nat
  line : Nat
  column : Nat
deriving Repr

/-- The characters that end a line. -/
def isBreak (c : Char) : Bool :=
  c == '\n' || c == '\r' || c.val == 0x85 || c.val == 0x2028 || c.val == 0x2029

/-- A space or a tab. -/
def isBlank (c : Char) : Bool := c == ' ' || c == '\t'

/-- Whether a text has ended or goes on with a line end. -/
def atBreak : List Char → Bool
  | [] => true
  | c :: _ => isBreak c

/-- Whether a text has ended or goes on with a blank or a line end. -/
def atBlank : List Char → Bool
  | [] => true
  | c :: _ => isBlank c || isBreak c

/-- The characters of names. -/
def isWordChar (c : Char) : Bool := c.isAlphanum || c == '_' || c == '-'

/-- The line end that is kept of a line end in a text. -/
def keptBreak (c : Char) : Char := if c.val == 0x2028 || c.val == 0x2029 then c else '\n'

/-- The characters that a text may hold. -/
def isAllowed (c : Char) : Bool :=
  let n := c.val
  n == 0x09 || n == 0x0A || n == 0x0D || (0x20 ≤ n && n ≤ 0x7E) || n == 0x85 ||
  (0xA0 ≤ n && n ≤ 0xFFFD) || 0x10000 ≤ n

/-- Whether a line starts with the mark of a document's start or end. -/
def atDocumentMark (column : Nat) : List Char → Bool
  | '-' :: '-' :: '-' :: rest => column == 0 && atBlank rest
  | '.' :: '.' :: '.' :: rest => column == 0 && atBlank rest
  | _ => false

namespace Cursor

/-- The start of a text. -/
def start (text : List Char) : Cursor := ⟨text, 0, 0, 0⟩

/-- The place some characters further on the same line. -/
def skip (n : Nat) (c : Cursor) : Cursor :=
  ⟨c.rest.drop n, c.index + n, c.line, c.column + n⟩

/-- The place behind the characters that pass a test. -/
def skipWhile (p : Char → Bool) (c : Cursor) : Cursor := c.skip (c.rest.takeWhile p).length

/-- The place behind a line end, if there is one. -/
def skipBreak (c : Cursor) : Cursor :=
  match c.rest with
  | '\r' :: '\n' :: rest => ⟨rest, c.index + 2, c.line + 1, 0⟩
  | d :: rest => if isBreak d then ⟨rest, c.index + 1, c.line + 1, 0⟩ else c
  | [] => c

/-- The place of the next token, and whether a simple key may start
there: blanks, comments and line ends are passed over. A tab is a blank
inside brackets and where no simple key may start; outside brackets a key
may start on a new line. -/
def toToken (flow : Bool) (allowed comment : Bool) (index line column : Nat) :
    List Char → Cursor × Bool
  | [] => (⟨[], index, line, column⟩, allowed)
  | '\r' :: '\n' :: rest =>
    toToken flow (allowed || !flow) false (index + 2) (line + 1) 0 rest
  | c :: rest =>
    if isBreak c then toToken flow (allowed || !flow) false (index + 1) (line + 1) 0 rest
    else if comment || c == '#' then
      toToken flow allowed true (index + 1) line (column + 1) rest
    else if c == ' ' || (c == '\t' && (flow || !allowed)) || (c.val == 0xFEFF && column == 0) then
      toToken flow allowed false (index + 1) line (column + 1) rest
    else (⟨c :: rest, index, line, column⟩, allowed)

end Cursor

end Yaml

end TypedClient
