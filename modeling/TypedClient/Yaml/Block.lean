import TypedClient.Decimal.Shortest
import TypedClient.Json.Text
import TypedClient.Yaml.Value
/-!
# The block text of values

`Value.blockText` writes a value as a YAML block: a line for each item and
entry, two columns further in for what is inside. A sequence that is the
value of an entry stands in the entry's own column. A scalar is plain if
it can be; a text that would mean something else is quoted.
-/

namespace TypedClient

namespace Yaml

namespace Block

/-- Whether a character shows as itself in quotes and outside. -/
def isVisible (c : Char) : Bool :=
  let n := c.val
  n == 0x0A || (0x20 ≤ n && n ≤ 0x7E) || (0xA0 ≤ n && n ≤ 0xFFFD && n != 0xFEFF)

/-- What keeps a text from being plain or quoted in some way. -/
structure Traits where
  /-- It starts with a mark, or has one where it counts. -/
  marked : Bool
  multiline : Bool
  /-- A blank or line end is at one of its ends. -/
  ragged : Bool
  spaceAtEnd : Bool
  spaceAfterBreak : Bool
  breakAfterSpace : Bool
  invisible : Bool

/-- Whether a character counts as a mark between its neighbours. -/
def isMark (first : Bool) (before after : Bool) (c : Char) : Bool :=
  if first then
    "#,[]\x7b\x7d&*!|>\"%@`".toList.contains c || c.toNat == 39 ||
      ((c == '?' || c == ':' || c == '-') && after)
  else (c == ':' && after) || (c == '#' && before)

/-- Whether some character of a text counts as a mark. -/
def hasMark (first before : Bool) : List Char → Bool
  | [] => false
  | c :: rest =>
    isMark first before (atBlank rest) c || hasMark false (isBlank c || isBreak c) rest

/-- Whether a character with one property stands before one with
another. -/
def hasPair (p q : Char → Bool) : List Char → Bool
  | c :: d :: rest => (p c && q d) || hasPair p q (d :: rest)
  | _ => false

/-- The traits of a text. -/
def Traits.ofText (s : List Char) : Traits :=
  let space (c : Char) := c == ' '
  let edge (c : Option Char) := c.any fun c => space c || isBreak c
  { marked := hasMark true true s || ['-', '-', '-'].isPrefixOf s || ['.', '.', '.'].isPrefixOf s
    multiline := s.any isBreak
    ragged := edge s.head? || edge s.getLast?
    spaceAtEnd := s.getLast?.any space
    spaceAfterBreak := hasPair isBreak space s
    breakAfterSpace := hasPair space isBreak s
    invisible := s.any (!isVisible ·) }

/-- How a text is written. -/
inductive Quoting where
  | plain
  | single
  | double
  | literal
deriving DecidableEq

/-- The words that older readers take for truth values. -/
def truthWords : List String :=
  ["y", "Y", "yes", "Yes", "YES", "n", "N", "no", "No", "NO", "true", "True", "TRUE", "false",
   "False", "FALSE", "on", "On", "ON", "off", "Off", "OFF"]

/-- Whether a plain text would mean something else. -/
def isAmbiguous (s : String) : Bool :=
  truthWords.contains s || isZeroPaddedText s ||
    match Value.ofPlain? s with
    | some (.string _) => false
    | some _ => true
    | none => true
where
  isZeroPaddedText (s : String) : Bool := Value.isZeroPadded s.toList

/-- How a text is written, where `key` says whether it is a key on a line
with its value. -/
def quoting (key : Bool) (s : String) : Quoting :=
  let t := Traits.ofText s.toList
  let double := t.invisible || t.spaceAfterBreak || t.breakAfterSpace
  if s.toList.contains '\n' then
    if key || t.spaceAtEnd || t.invisible then .double else .literal
  else if key && t.multiline then .double
  else if isAmbiguous s || t.marked || t.multiline || t.ragged || double then
    if double then .double else .single
  else .plain

/-- An upper-case hexadecimal digit. -/
def hexDigit (n : Nat) : Char := if n < 10 then Char.ofNat (48 + n) else Char.ofNat (55 + n)

/-- A number in a count of hexadecimal digits. -/
def hex : Nat → Nat → List Char
  | 0, _ => []
  | width + 1, n => hex width (n / 16) ++ [hexDigit (n % 16)]

/-- One character in double quotes. -/
def escaped (c : Char) : List Char :=
  let n := c.toNat
  if isVisible c && !isBreak c && c != '"' && c != '\\' then [c]
  else
    let name := match n with
      | 0x00 => some '0'
      | 0x07 => some 'a'
      | 0x08 => some 'b'
      | 0x09 => some 't'
      | 0x0A => some 'n'
      | 0x0B => some 'v'
      | 0x0C => some 'f'
      | 0x0D => some 'r'
      | 0x1B => some 'e'
      | 0x22 => some '"'
      | 0x5C => some '\\'
      | 0x85 => some 'N'
      | 0x2028 => some 'L'
      | 0x2029 => some 'P'
      | _ => none
    match name with
    | some name => ['\\', name]
    | none =>
      if n < 0x100 then '\\' :: 'x' :: hex 2 n
      else if n < 0x10000 then '\\' :: 'u' :: hex 4 n
      else '\\' :: 'U' :: hex 8 n

/-- A text in single quotes. -/
def singleQuoted (s : List Char) : List Char :=
  let quote := Char.ofNat 39
  quote :: s.flatMap (fun c => if c == quote then [quote, quote] else [c]) ++ [quote]

/-- The start of a line at a column. -/
def newLine (column : Nat) : List Char := '\n' :: List.replicate column ' '

/-- The lines of a literal block at a column; empty lines have no
blanks. -/
def literalLines (column : Nat) (s : List Char) : List Char :=
  let parts := Text.splitOn '\n' s
  let parts := if parts.getLast? == some [] then parts.dropLast else parts
  parts.flatMap fun line => if line.isEmpty then ['\n'] else newLine column ++ line

/-- The header of a literal block: the indentation if the text starts with
a blank, and what becomes of the line ends behind it. -/
def literalHeader (s : List Char) : List Char :=
  let hint := if s.head?.any (fun c => c == ' ' || isBreak c) then ['2'] else []
  let chomping := match s.reverse with
    | '\n' :: '\n' :: _ => ['+']
    | ['\n'] => ['+']
    | '\n' :: _ => []
    | _ => ['-']
  '|' :: hint ++ chomping

/-- A scalar whose block lines stand at a column. -/
def scalarText (column : Nat) (key : Bool) (s : String) : List Char :=
  match quoting key s with
  | .plain => s.toList
  | .single => singleQuoted s.toList
  | .double => '"' :: s.toList.flatMap escaped ++ ['"']
  | .literal => literalHeader s.toList ++ literalLines column s.toList

/-- Numbers carry no sign before a positive exponent. -/
def numberNotation : Notation := ⟨false⟩

/-- The text of a number that is not an integer. -/
def realText : Real → String
  | .finite x => numberNotation.text x
  | .infinite false => ".inf"
  | .infinite true => "-.inf"
  | .nan => ".nan"

/-- The characters of tags that stand for themselves. -/
def isTagChar (c : Char) : Bool :=
  isWordChar c || ";/?:@&=+$.~*()".toList.contains c || c.toNat == 39

/-- A tag in front of a value. -/
def tagText (tag : String) : List Char :=
  if tag == "!" then "!<!>".toList
  else '!' :: tag.toList.flatMap fun c =>
    if isTagChar c then [c]
    else c.toString.toUTF8.toList.flatMap fun b => '%' :: hex 2 b.toNat

/-- The place of a value: at the start of the text, or inside an entry
or item at a column. -/
inductive Place where
  | root
  | inside (column : Nat)

/-- The column for what is inside. -/
def Place.inner : Place → Nat
  | .root => 0
  | .inside column => column + 2

/-- The column of the lines of a block scalar. -/
def Place.scalarColumn : Place → Nat
  | .root => 2
  | .inside column => column + 2

/-- What parts a value from what is before it on the line. -/
def Place.gap : Place → List Char
  | .root => []
  | .inside _ => [' ']

/-- A collection from its first line on: behind what is before it on the
line, or on a line of its own. -/
def collection (place : Place) (sameLine : Bool) (column : Nat) (text : List Char) : List Char :=
  if sameLine then place.gap ++ text else newLine column ++ text

/-- The text of a scalar that is not a text. -/
def simpleText : Value → List Char
  | .null => "null".toList
  | .bool true => "true".toList
  | .bool false => "false".toList
  | .integer n => (Json.integerText n).toList
  | .real x => (realText x).toList
  | _ => []

/-- Whether a value may be a key on the line of its value: a short scalar
on one line, or an empty collection. -/
def isSimpleKey : Value → Bool
  | .string s => !s.toList.any isBreak && s.utf8ByteSize ≤ 128
  | .sequence items => items.isEmpty
  | .mapping entries => entries.isEmpty
  | .tagged tag (.string s) =>
    !s.toList.any isBreak && s.utf8ByteSize + tag.utf8ByteSize + 1 ≤ 128
  | .tagged _ (.sequence items) => items.isEmpty
  | .tagged _ (.mapping entries) => entries.isEmpty
  | _ => true

mutual

/-- The text of a value behind what is before it on its line. `entry` says
whether it is the value of an entry, `key` whether it is a key on the line
of its value, and `sameLine` whether a collection may start here. -/
def valueText (place : Place) (entry key sameLine : Bool) : Value → List Char
  | .string s => place.gap ++ scalarText place.scalarColumn key s
  | .sequence items =>
    if items.isEmpty then place.gap ++ ['[', ']']
    else
      let column := match place with
        | .inside c => if entry && !sameLine then c else c + 2
        | .root => 0
      collection place sameLine column (itemsText column items)
  | .mapping entries =>
    if entries.isEmpty then place.gap ++ ['\x7b', '\x7d']
    else collection place sameLine place.inner (entriesText place.inner entries)
  | .tagged tag value =>
    place.gap ++ tagText tag ++
      match value with
      | .string s => ' ' :: scalarText place.scalarColumn key s
      | .sequence items =>
        if items.isEmpty then [' ', '[', ']']
        else
          let column := match place with
            | .inside c => if entry then c else c + 2
            | .root => 0
          newLine column ++ itemsText column items
      | .mapping entries =>
        if entries.isEmpty then [' ', '\x7b', '\x7d']
        else newLine place.inner ++ entriesText place.inner entries
      | other => ' ' :: simpleText other
  | other => place.gap ++ simpleText other
termination_by structural v => v

/-- Items at a column, from the first dash on. -/
def itemsText (column : Nat) : List Value → List Char
  | [] => []
  | item :: rest =>
    '-' :: valueText (.inside column) false false true item ++
      (if rest.isEmpty then [] else newLine column ++ itemsText column rest)
termination_by structural items => items

/-- Entries at a column, from the first key on. -/
def entriesText (column : Nat) : List (Value × Value) → List Char
  | [] => []
  | (key, value) :: rest =>
    (if isSimpleKey key then
      (valueText (.inside column) true true false key).drop 1 ++
        ':' :: valueText (.inside column) true false false value
    else
      '?' :: valueText (.inside column) true false true key ++ newLine column ++
        ':' :: valueText (.inside column) true false true value) ++
      (if rest.isEmpty then [] else newLine column ++ entriesText column rest)
termination_by structural entries => entries

end

end Block

/-- The block text of a value. -/
def Value.blockText (v : Value) : String :=
  String.ofList (Text.trimEnd (Block.valueText .root false false true v))

end Yaml

end TypedClient
