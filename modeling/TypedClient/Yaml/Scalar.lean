import TypedClient.Yaml.Cursor
/-!
# The texts of scalars

A scalar is written plain, in single or double quotes, or as a block.
Each function reads from a place and gives the text with the place behind
it. Line ends inside plain and quoted scalars fold: a single one becomes a
space, and of more the first is dropped.
-/

namespace TypedClient

namespace Yaml

namespace Scalar

/-- What has been read of a plain or quoted scalar: its text backwards,
the blanks after it, and from the first line end on that line end and
those after it. -/
structure Fold where
  text : List Char
  blanks : List Char
  /-- A line end has been met since the text. -/
  folding : Bool
  first : List Char
  more : List Char

namespace Fold

/-- Nothing read. -/
def empty : Fold := ⟨[], [], false, [], []⟩

/-- The text together with the blanks and line ends after it. -/
def join (f : Fold) : Fold :=
  let text :=
    if f.folding then
      if f.first == ['\n'] then
        if f.more.isEmpty then ' ' :: f.text else f.more ++ f.text
      else f.more ++ f.first ++ f.text
    else f.blanks ++ f.text
  ⟨text, [], false, [], []⟩

/-- One character of the text. -/
def push (c : Char) (f : Fold) : Fold :=
  let f := f.join
  { f with text := c :: f.text }

/-- A blank. Blanks at the start of a line do not count. -/
def blank (c : Char) (f : Fold) : Fold :=
  if f.folding then f else { f with blanks := c :: f.blanks }

/-- A line end. -/
def lineEnd (c : Char) (f : Fold) : Fold :=
  if f.folding then { f with more := keptBreak c :: f.more }
  else { f with blanks := [], folding := true, first := [keptBreak c] }

end Fold

/-- Where the reader of a plain or quoted scalar stands. -/
inductive Mode where
  /-- At the start of a run of text. -/
  | head
  /-- In a run of text. -/
  | inside
  /-- Between runs of text. -/
  | between
deriving DecidableEq

/-- The brackets and the comma. -/
def isFlowMark (c : Char) : Bool :=
  c == ',' || c == '[' || c == ']' || c == '\x7b' || c == '\x7d'

/-- Whether a plain scalar ends before a character. -/
def endsPlain (flow : Bool) (c : Char) (rest : List Char) : Bool :=
  (c == ':' && atBlank rest) || (flow && isFlowMark c)

/-- Whether a colon may not stand here: inside brackets before another
mark. -/
def strayColon (flow : Bool) (c : Char) (rest : List Char) : Bool :=
  flow && c == ':' &&
    match rest with
    | d :: _ => d == '?' || isFlowMark d
    | [] => false

/-- A plain scalar from a place on: its text, whether a line end follows
it, and the place behind. Outside brackets its lines are indented by at
least `indent`. -/
def plain (flow : Bool) (indent : Nat) (mode : Mode) (f : Fold) (index line column : Nat) :
    List Char → Option (List Char × Bool × Cursor)
  | [] => some (f.text.reverse, f.folding, ⟨[], index, line, column⟩)
  | '\r' :: '\n' :: rest =>
    plain flow indent .between (f.lineEnd '\n') (index + 2) (line + 1) 0 rest
  | c :: rest =>
    let stop := some (f.text.reverse, f.folding, ⟨c :: rest, index, line, column⟩)
    if isBreak c then
      plain flow indent .between (f.lineEnd c) (index + 1) (line + 1) 0 rest
    else if isBlank c then
      if f.folding && column < indent && c == '\t' then none
      else plain flow indent .between (f.blank c) (index + 1) line (column + 1) rest
    else if mode == .between && !flow && column < indent then stop
    else if mode != .inside && (atDocumentMark column (c :: rest) || c == '#') then stop
    else if strayColon flow c rest then none
    else if endsPlain flow c rest then stop
    else plain flow indent .inside (f.push c) (index + 1) line (column + 1) rest

/-- The text between single quotes from behind the first quote on. A quote
inside is written twice. -/
def singleQuoted (mode : Mode) (f : Fold) (index line column : Nat) :
    List Char → Option (List Char × Cursor)
  | [] => none
  | '\r' :: '\n' :: rest => singleQuoted .between (f.lineEnd '\n') (index + 2) (line + 1) 0 rest
  | c :: rest =>
    if isBreak c then singleQuoted .between (f.lineEnd c) (index + 1) (line + 1) 0 rest
    else if isBlank c then singleQuoted .between (f.blank c) (index + 1) line (column + 1) rest
    else if mode != .inside && atDocumentMark column (c :: rest) then none
    else if c.toNat == 39 then
      match rest with
      | d :: rest =>
        if d == c then singleQuoted .inside (f.push c) (index + 2) line (column + 2) rest
        else some (f.join.text.reverse, ⟨d :: rest, index + 1, line, column + 1⟩)
      | [] => some (f.join.text.reverse, ⟨[], index + 1, line, column + 1⟩)
    else singleQuoted .inside (f.push c) (index + 1) line (column + 1) rest

/-- The value of a hexadecimal digit. -/
def hexValue? (c : Char) : Option Nat :=
  if '0' ≤ c && c ≤ '9' then some (c.toNat - 48)
  else if 'a' ≤ c && c ≤ 'f' then some (c.toNat - 87)
  else if 'A' ≤ c && c ≤ 'F' then some (c.toNat - 55)
  else none

/-- The character with a number written in hexadecimal digits. -/
def hexChar? (digits : List Char) : Option Char :=
  let value := digits.foldl (fun n? d => do
    let n ← n?
    let d ← hexValue? d
    return 16 * n + d) (some 0)
  match value with
  | some n => if n < 0x110000 && !(0xD800 ≤ n && n ≤ 0xDFFF) then some (Char.ofNat n) else none
  | none => none

/-- The character of a one-letter escape. -/
def escape? (c : Char) : Option Char :=
  match c with
  | '0' => some '\x00'
  | 'a' => some '\x07'
  | 'b' => some '\x08'
  | 't' => some '\t'
  | '\t' => some '\t'
  | 'n' => some '\n'
  | 'v' => some '\x0b'
  | 'f' => some '\x0c'
  | 'r' => some '\r'
  | 'e' => some '\x1b'
  | ' ' => some ' '
  | '"' => some '"'
  | '/' => some '/'
  | '\\' => some '\\'
  | 'N' => some (Char.ofNat 0x85)
  | '_' => some (Char.ofNat 0xA0)
  | 'L' => some (Char.ofNat 0x2028)
  | 'P' => some (Char.ofNat 0x2029)
  | _ => none

/-- A line end that a backslash takes away: what follows on the next line
goes on from the text. -/
def Fold.escapedBreak (f : Fold) : Fold := { f.join with folding := true }

/-- The text between double quotes from behind the first quote on. -/
def doubleQuoted (mode : Mode) (f : Fold) (index line column : Nat) :
    List Char → Option (List Char × Cursor)
  | [] => none
  | '\r' :: '\n' :: rest => doubleQuoted .between (f.lineEnd '\n') (index + 2) (line + 1) 0 rest
  | '"' :: rest => some (f.join.text.reverse, ⟨rest, index + 1, line, column + 1⟩)
  | '\\' :: '\r' :: '\n' :: rest =>
    doubleQuoted .between f.escapedBreak (index + 3) (line + 1) 0 rest
  | '\\' :: 'x' :: a :: b :: rest =>
    match hexChar? [a, b] with
    | some c => doubleQuoted .inside (f.push c) (index + 4) line (column + 4) rest
    | none => none
  | '\\' :: 'u' :: a :: b :: c :: d :: rest =>
    match hexChar? [a, b, c, d] with
    | some c => doubleQuoted .inside (f.push c) (index + 6) line (column + 6) rest
    | none => none
  | '\\' :: 'U' :: s :: t :: u :: v :: a :: b :: c :: d :: rest =>
    match hexChar? [s, t, u, v, a, b, c, d] with
    | some c => doubleQuoted .inside (f.push c) (index + 10) line (column + 10) rest
    | none => none
  | '\\' :: c :: rest =>
    if isBreak c then doubleQuoted .between f.escapedBreak (index + 2) (line + 1) 0 rest
    else
      match escape? c with
      | some c => doubleQuoted .inside (f.push c) (index + 2) line (column + 2) rest
      | none => none
  | c :: rest =>
    if isBreak c then doubleQuoted .between (f.lineEnd c) (index + 1) (line + 1) 0 rest
    else if isBlank c then doubleQuoted .between (f.blank c) (index + 1) line (column + 1) rest
    else if c == '\\' then none
    else if mode != .inside && atDocumentMark column (c :: rest) then none
    else doubleQuoted .inside (f.push c) (index + 1) line (column + 1) rest

/-- What becomes of the line ends at the end of a block. -/
inductive Chomping where
  | strip
  | clip
  | keep
deriving DecidableEq

/-- What has been read of a block: its text backwards, the last line end,
those after it, and the indentation, which is zero until it is known. -/
structure Block where
  text : List Char
  first : List Char
  more : List Char
  /-- The last line started with a blank. -/
  blankStart : Bool
  indent : Nat
  /-- The most spaces before the first text. -/
  deepest : Nat

namespace Block

/-- The block at the start of a line of text, with the line ends before it
kept or, between two lines that start with no blank, folded. -/
def startLine (literal : Bool) (c : Char) (b : Block) : Block :=
  let ends :=
    if !literal && b.first == ['\n'] && !b.blankStart && !isBlank c then
      if b.more.isEmpty then [' '] else b.more
    else b.more ++ b.first
  { b with text := c :: (ends ++ b.text), first := [], more := [], blankStart := isBlank c }

/-- The whole text. -/
def finish (chomping : Chomping) (b : Block) : List Char :=
  match chomping with
  | .strip => b.text.reverse
  | .clip => (b.first ++ b.text).reverse
  | .keep => (b.more ++ b.first ++ b.text).reverse

end Block

/-- A block from the line after its header on. `least` is the least
indentation that its text may have. -/
def block (literal : Bool) (chomping : Chomping) (least : Nat) (inLine : Bool) (b : Block)
    (index line column : Nat) : List Char → Option (List Char × Cursor)
  | [] => some (b.finish chomping, ⟨[], index, line, column⟩)
  | '\r' :: '\n' :: rest =>
    let b := if inLine then { b with first := ['\n'] }
      else { b with more := '\n' :: b.more, deepest := max b.deepest column }
    block literal chomping least false b (index + 2) (line + 1) 0 rest
  | c :: rest =>
    if isBreak c then
      let b := if inLine then { b with first := [keptBreak c] }
        else { b with more := keptBreak c :: b.more, deepest := max b.deepest column }
      block literal chomping least false b (index + 1) (line + 1) 0 rest
    else if inLine then
      block literal chomping least true { b with text := c :: b.text } (index + 1) line
        (column + 1) rest
    else if (b.indent == 0 || column < b.indent) && c == ' ' then
      block literal chomping least false b (index + 1) line (column + 1) rest
    else if (b.indent == 0 || column < b.indent) && c == '\t' then none
    else
      let indent := if b.indent == 0 then max (max b.deepest column) least else b.indent
      let b := { b with indent }
      if column == indent then
        block literal chomping least true (b.startLine literal c) (index + 1) line (column + 1) rest
      else some (b.finish chomping, ⟨c :: rest, index, line, column⟩)

/-- The header of a block behind its mark: what becomes of the line ends,
and the indentation relative to what is around it, zero if it is not
given. -/
def header (c : Cursor) : Option (Chomping × Nat × Cursor) :=
  let chomping? (d : Char) : Option Chomping :=
    if d == '+' then some .keep else if d == '-' then some .strip else none
  let digit? (d : Char) : Option Nat := if d.isDigit then some (d.toNat - 48) else none
  match c.rest with
  | [] => some (.clip, 0, c)
  | d :: rest =>
    match chomping? d with
    | some chomping =>
      match rest.head?.bind digit? with
      | some 0 => none
      | some n => some (chomping, n, c.skip 2)
      | none => some (chomping, 0, c.skip 1)
    | none =>
      match digit? d with
      | some 0 => none
      | some n =>
        match rest.head?.bind chomping? with
        | some chomping => some (chomping, n, c.skip 2)
        | none => some (.clip, n, c.skip 1)
      | none => some (.clip, 0, c)

/-- The place behind the blanks and the comment up to the end of a line,
if there is nothing else. -/
def toLineEnd? (c : Cursor) : Option Cursor :=
  let c := c.skipWhile isBlank
  let c := if c.rest.head? == some '#' then c.skipWhile (!isBreak ·) else c
  if atBreak c.rest then some c.skipBreak else none

/-- A block from behind its mark on, where `around` is the indentation of
what is around it, if anything is. -/
def blockScalar (literal : Bool) (around : Option Nat) (c : Cursor) :
    Option (List Char × Cursor) := do
  let (chomping, given, c) ← header c
  let c ← toLineEnd? c
  let outer := around.getD 0
  let indent := if given == 0 then 0 else outer + given
  let least := match around with
    | some n => n + 1
    | none => 1
  block literal chomping least false ⟨[], [], [], false, indent, 0⟩ c.index c.line c.column c.rest

end Scalar

end Yaml

end TypedClient
