import TypedClient.Yaml.Scalar
/-!
# YAML tokens

A text is cut into tokens: marks, names, scalars, and the starts and ends
of blocks, which indentation implies. A simple key is only known by the
colon behind it, on the same line and at most 1024 characters on; its mark
is put before it then.
-/

namespace TypedClient

namespace Yaml

/-- How a scalar is written. -/
inductive Style where
  | plain
  | quoted
  | literal
  | folded
deriving DecidableEq, Repr

/-- A token. -/
inductive Token where
  | version (major minor : Nat)
  | tagDirective (handle start : String)
  | documentStart
  | documentEnd
  | blockSequenceStart
  | blockMappingStart
  | blockEnd
  | flowSequenceStart
  | flowSequenceEnd
  | flowMappingStart
  | flowMappingEnd
  | blockEntry
  | flowEntry
  | key
  | value
  | alias (name : String)
  | anchor (name : String)
  | tag (handle suffix : String)
  | scalar (text : String) (style : Style)
deriving DecidableEq, Repr

/-- A place where a simple key may have started: the number of tokens
before it, and whether something else there would be a mistake. -/
structure KeyStart where
  token : Nat
  index : Nat
  line : Nat
  column : Nat
  required : Bool

/-- What has been read of a text. -/
structure Lexer where
  cursor : Cursor
  tokens : Array Token
  /-- The columns of the open blocks, the innermost first. -/
  blocks : List Nat
  /-- The number of open brackets. -/
  flow : Nat
  /-- A simple key may start here. -/
  keyAllowed : Bool
  /-- The place of a possible key inside the innermost brackets. -/
  key : Option KeyStart
  /-- Those outside of it. -/
  outerKeys : List (Option KeyStart)

namespace Lexer

/-- Nothing read. -/
def start (text : List Char) : Lexer := ⟨.start text, #[], [], 0, true, none, []⟩

/-- One token more. -/
def emit (t : Token) (l : Lexer) : Lexer := { l with tokens := l.tokens.push t }

/-- Whether a place is too far back for a simple key. -/
def isStale (c : Cursor) (k : KeyStart) : Bool := k.line < c.line || k.index + 1024 < c.index

/-- A possible key, unless it is too far back; a required one must not
be. -/
def fresh (c : Cursor) : Option KeyStart → Option (Option KeyStart)
  | none => some none
  | some k => if isStale c k then (if k.required then none else some none) else some (some k)

/-- The possible keys that are not too far back. -/
def dropStale (l : Lexer) : Option Lexer := do
  let key ← fresh l.cursor l.key
  let outerKeys ← l.outerKeys.mapM (fresh l.cursor)
  return { l with key, outerKeys }

/-- Without a possible key, which must not be required. -/
def dropKey (l : Lexer) : Option Lexer :=
  match l.key with
  | some k => if k.required then none else some { l with key := none }
  | none => some l

/-- A possible key starts here, if one may. It is required where a block
goes on. -/
def saveKey (l : Lexer) : Option Lexer :=
  if l.keyAllowed then do
    let l ← l.dropKey
    let c := l.cursor
    let required := l.flow == 0 && l.blocks.head? == some c.column
    return { l with key := some ⟨l.tokens.size, c.index, c.line, c.column, required⟩ }
  else some l

/-- Whether a column is to the right of the innermost block. -/
def opensBlock (column : Nat) (l : Lexer) : Bool :=
  l.flow == 0 &&
    match l.blocks with
    | [] => true
    | block :: _ => block < column

/-- A block opened at a column to the right of the innermost one. -/
def openBlock (column : Nat) (t : Token) (l : Lexer) : Lexer :=
  if l.opensBlock column then { l.emit t with blocks := column :: l.blocks } else l

/-- The blocks to the right of a column, which end here. -/
def endBlocks (column : Nat) : List Nat → Nat × List Nat
  | [] => (0, [])
  | block :: rest =>
    if column < block then
      let (n, left) := endBlocks column rest
      (n + 1, left)
    else (0, block :: rest)

/-- Tokens for the ends of blocks. -/
def emitEnds (n : Nat) (l : Lexer) : Lexer :=
  { l with tokens := l.tokens ++ Array.replicate n Token.blockEnd }

/-- Without the blocks to the right of a column. -/
def closeTo (column : Nat) (l : Lexer) : Lexer :=
  if l.flow == 0 then
    let (n, blocks) := endBlocks column l.blocks
    { l.emitEnds n with blocks }
  else l

/-- Without any block. -/
def closeAll (l : Lexer) : Lexer :=
  if l.flow == 0 then { l.emitEnds l.blocks.length with blocks := [] } else l

/-- Behind a mark of some characters. -/
def mark (t : Token) (length : Nat) (l : Lexer) : Lexer :=
  { l.emit t with cursor := l.cursor.skip length }

/-- The digits of a version number and the place behind them. -/
def versionNumber? (c : Cursor) : Option (Nat × Cursor) :=
  let digits := c.rest.takeWhile Char.isDigit
  if digits.isEmpty || 9 < digits.length then none
  else some (digits.foldl (fun n d => 10 * n + (d.toNat - 48)) 0, c.skip digits.length)

/-- The characters of the URI of a tag; a few more stand in angle
brackets and directives. -/
def isUriChar (verbatim : Bool) (c : Char) : Bool :=
  isWordChar c || ";/?:@&=+$.%!~*()".toList.contains c || c.toNat == 39 ||
    (verbatim && (c == ',' || c == '[' || c == ']'))

/-- The value of two hexadecimal digits. -/
def hexByte? (a b : Char) : Option Nat := do
  let a ← Scalar.hexValue? a
  let b ← Scalar.hexValue? b
  return 16 * a + b

/-- The number of bytes of a character by its first byte. -/
def byteCount (first : Nat) : Option Nat :=
  if first < 0x80 then some 1
  else if 0xC0 ≤ first && first < 0xE0 then some 2
  else if 0xE0 ≤ first && first < 0xF0 then some 3
  else if 0xF0 ≤ first && first < 0xF8 then some 4
  else none

/-- The URI with its percent escapes decoded byte by byte, where `left`
bytes of a character are still to come. -/
def decodeUri (left : Nat) : List Char → Option (List Char)
  | [] => if left == 0 then some [] else none
  | '%' :: a :: b :: rest =>
    match hexByte? a b with
    | none => none
    | some n =>
      if left == 0 then
        match byteCount n with
        | none => none
        | some width => (decodeUri (width - 1) rest).map (Char.ofNat n :: ·)
      else if 0x80 ≤ n && n < 0xC0 then (decodeUri (left - 1) rest).map (Char.ofNat n :: ·)
      else none
  | c :: rest =>
    if left == 0 && c != '%' then (decodeUri 0 rest).map (c :: ·) else none

/-- A URI up to its first null, and the place behind it. -/
def uri? (verbatim : Bool) (c : Cursor) : Option (List Char × Cursor) := do
  let chars := c.rest.takeWhile (isUriChar verbatim)
  let decoded ← decodeUri 0 chars
  return (decoded.takeWhile (·.toNat != 0), c.skip chars.length)

/-- A handle from its exclamation mark on: letters, and a further mark if
there is one. -/
def handle? (c : Cursor) : Option (List Char × Cursor) :=
  match c.rest with
  | '!' :: rest =>
    let word := rest.takeWhile isWordChar
    if (rest.dropWhile isWordChar).head? == some '!' then
      some ('!' :: word ++ ['!'], c.skip (word.length + 2))
    else some ('!' :: word, c.skip (word.length + 1))
  | _ => none

/-- The end of a handle in a directive: it is a lone mark or has one at
its end. -/
def isDirectiveHandle (handle : List Char) : Bool :=
  handle.length == 1 || handle.getLast? == some '!'

/-- The version of a version directive. -/
def versionDirective? (c : Cursor) : Option (Token × Cursor) := do
  let (major, c) ← versionNumber? (c.skipWhile isBlank)
  if c.rest.head? != some '.' then none
  let (minor, c) ← versionNumber? (c.skip 1)
  return (.version major minor, c)

/-- The handle of a tag directive and what it stands for. -/
def tagDirective? (c : Cursor) : Option (Token × Cursor) := do
  let (handle, c) ← handle? (c.skipWhile isBlank)
  if !isDirectiveHandle handle || !(c.rest.head?.any isBlank) then none
  let c := c.skipWhile isBlank
  let (start, d) ← uri? true c
  if d.index == c.index || !atBlank d.rest then none
  return (.tagDirective (String.ofList handle) (String.ofList start), d)

/-- A directive from its percent sign on. -/
def directive (l : Lexer) : Option Lexer := do
  let l ← l.closeAll.dropKey
  let c := l.cursor.skip 1
  let name := c.rest.takeWhile isWordChar
  let c := c.skip name.length
  if name.isEmpty || !atBlank c.rest then none
  let (token, c) ←
    if name == "YAML".toList then versionDirective? c
    else if name == "TAG".toList then tagDirective? c
    else none
  let c ← Scalar.toLineEnd? c
  return { l.emit token with cursor := c, keyAllowed := false }

/-- The mark of a document's start or end. -/
def documentMark (t : Token) (l : Lexer) : Option Lexer := do
  let l ← l.closeAll.dropKey
  return { l.mark t 3 with keyAllowed := false }

/-- An opening bracket. -/
def flowStart (t : Token) (l : Lexer) : Option Lexer := do
  let l ← l.saveKey
  return { l.mark t 1 with
    flow := l.flow + 1, keyAllowed := true, key := none, outerKeys := l.key :: l.outerKeys }

/-- A closing bracket. -/
def flowEnd (t : Token) (l : Lexer) : Option Lexer := do
  let l ← l.dropKey
  let l := match l.outerKeys with
    | key :: outerKeys => { l with flow := l.flow - 1, key, outerKeys }
    | [] => l
  return { l.mark t 1 with keyAllowed := false }

/-- A comma. -/
def flowEntry (l : Lexer) : Option Lexer := do
  let l ← l.dropKey
  return { l.mark .flowEntry 1 with keyAllowed := true }

/-- The dash of an entry. -/
def blockEntry (l : Lexer) : Option Lexer := do
  if l.flow == 0 && !l.keyAllowed then none
  let l ← (l.openBlock l.cursor.column .blockSequenceStart).dropKey
  return { l.mark .blockEntry 1 with keyAllowed := true }

/-- The question mark of a key. -/
def explicitKey (l : Lexer) : Option Lexer := do
  if l.flow == 0 && !l.keyAllowed then none
  let l ← (l.openBlock l.cursor.column .blockMappingStart).dropKey
  return { l.mark .key 1 with keyAllowed := l.flow == 0 }

/-- The colon of a value. A possible key turns out to be one. -/
def explicitValue (l : Lexer) : Option Lexer :=
  match l.key with
  | some k =>
    let tokens := l.tokens.insertIdx! k.token .key
    let l := { l with tokens, key := none, keyAllowed := false }
    let l := if l.opensBlock k.column then
        { l with
          tokens := tokens.insertIdx! k.token .blockMappingStart, blocks := k.column :: l.blocks }
      else l
    some (l.mark .value 1)
  | none =>
    if l.flow == 0 && !l.keyAllowed then none
    else
      let l := l.openBlock l.cursor.column .blockMappingStart
      some { l.mark .value 1 with keyAllowed := l.flow == 0 }

/-- The name of an anchor or an alias behind its sign. -/
def name? (c : Cursor) : Option (String × Cursor) :=
  let word := c.rest.takeWhile isWordChar
  let c := c.skip word.length
  if word.isEmpty then none
  else if atBlank c.rest || c.rest.head?.any ("?:,]\x7d%@`".toList.contains ·) then
    some (String.ofList word, c)
  else none

/-- An anchor or an alias. -/
def named (make : String → Token) (l : Lexer) : Option Lexer := do
  let l ← l.saveKey
  let (name, c) ← name? (l.cursor.skip 1)
  return { l.emit (make name) with cursor := c, keyAllowed := false }

/-- The handle and suffix of a tag, and the place behind it. -/
def tag? (c : Cursor) : Option (List Char × List Char × Cursor) :=
  match c.rest with
  | '!' :: '<' :: _ => do
    let (suffix, d) ← uri? true (c.skip 2)
    if d.index == c.index + 2 || d.rest.head? != some '>' then none
    return ([], suffix, d.skip 1)
  | _ => do
    let (handle, d) ← handle? c
    if 2 ≤ handle.length && handle.getLast? == some '!' then do
      let (suffix, e) ← uri? false d
      if e.index == d.index then none
      return (handle, suffix, e)
    else do
      let (suffix, e) ← uri? false d
      let suffix := handle.drop 1 ++ suffix
      return if suffix.isEmpty then ([], ['!'], e) else (['!'], suffix, e)

/-- A tag. -/
def tagged (l : Lexer) : Option Lexer := do
  let l ← l.saveKey
  let (handle, suffix, c) ← tag? l.cursor
  if atBlank c.rest || (l.flow != 0 && c.rest.head? == some ',') then
    return { l.emit (.tag (String.ofList handle) (String.ofList suffix)) with
      cursor := c, keyAllowed := false }
  else none

/-- A block scalar. -/
def blockScalar (literal : Bool) (l : Lexer) : Option Lexer := do
  let l ← l.dropKey
  let (text, c) ← Scalar.blockScalar literal l.blocks.head? (l.cursor.skip 1)
  let style : Style := if literal then .literal else .folded
  return { l.emit (.scalar (String.ofList text) style) with cursor := c, keyAllowed := true }

/-- A quoted scalar. -/
def quotedScalar (single : Bool) (l : Lexer) : Option Lexer := do
  let l ← l.saveKey
  let c := l.cursor.skip 1
  let read := if single then Scalar.singleQuoted else Scalar.doubleQuoted
  let (text, c) ← read .head .empty c.index c.line c.column c.rest
  return { l.emit (.scalar (String.ofList text) .quoted) with cursor := c, keyAllowed := false }

/-- A plain scalar. Behind a line end a simple key may start. -/
def plainScalar (l : Lexer) : Option Lexer := do
  let l ← l.saveKey
  let c := l.cursor
  let indent := match l.blocks with
    | [] => 0
    | block :: _ => block + 1
  let (text, lineEnded, c) ←
    Scalar.plain (l.flow != 0) indent .head .empty c.index c.line c.column c.rest
  return { l.emit (.scalar (String.ofList text) .plain) with cursor := c, keyAllowed := lineEnded }

/-- The characters that no plain scalar starts with. -/
def isIndicator (c : Char) : Bool :=
  "-?:,[]\x7b\x7d#&*!|>\"%@`".toList.contains c || c.toNat == 39

/-- Whether a plain scalar starts here. -/
def startsPlain (flow : Bool) (c : Char) (rest : List Char) : Bool :=
  (!isIndicator c && !isBlank c) || (c == '-' && !(rest.head?.any isBlank)) ||
    (!flow && (c == '?' || c == ':') && !atBlank rest)

/-- The token at the place of the lexer, which is behind blanks. -/
def token (l : Lexer) : Option Lexer :=
  let flow := l.flow != 0
  match l.cursor.rest with
  | [] => some l
  | c :: rest =>
    if l.cursor.column == 0 && c == '%' then l.directive
    else if atDocumentMark l.cursor.column (c :: rest) then
      l.documentMark (if c == '-' then .documentStart else .documentEnd)
    else if c == '[' then l.flowStart .flowSequenceStart
    else if c == '\x7b' then l.flowStart .flowMappingStart
    else if c == ']' then l.flowEnd .flowSequenceEnd
    else if c == '\x7d' then l.flowEnd .flowMappingEnd
    else if c == ',' then l.flowEntry
    else if c == '-' && atBlank rest then l.blockEntry
    else if c == '?' && (flow || atBlank rest) then l.explicitKey
    else if c == ':' && (flow || atBlank rest) then l.explicitValue
    else if c == '*' then l.named .alias
    else if c == '&' then l.named .anchor
    else if c == '!' then l.tagged
    else if c == '|' && !flow then l.blockScalar true
    else if c == '>' && !flow then l.blockScalar false
    else if c.toNat == 39 then l.quotedScalar true
    else if c == '"' then l.quotedScalar false
    else if startsPlain flow c rest then l.plainScalar
    else none

/-- At the place of the next token, with the blocks and possible keys that
are left there. -/
def advance (l : Lexer) : Option Lexer := do
  let c := l.cursor
  let (c, keyAllowed) :=
    Cursor.toToken (l.flow != 0) l.keyAllowed false c.index c.line c.column c.rest
  let l ← { l with cursor := c, keyAllowed }.dropStale
  return l.closeTo c.column

/-- The end of the text: a line ends, and all blocks do. -/
def finish (l : Lexer) : Option (Array Token) := do
  let c := l.cursor
  let c := if c.column == 0 then c else { c with column := 0, line := c.line + 1 }
  let l ← { l with cursor := c }.closeAll.dropKey
  return l.tokens

/-- All tokens from here on. Each takes characters of the text, so their
number bounds the steps. -/
def run : Nat → Lexer → Option (Array Token)
  | 0, _ => none
  | steps + 1, l =>
    match l.advance with
    | none => none
    | some here =>
      if here.cursor.rest.isEmpty then here.finish
      else
        match here.token with
        | none => none
        | some next => run steps next

end Lexer

/-- The tokens of a text. A byte order mark in front does not belong to
it. -/
def Token.ofText? (text : String) : Option (List Token) :=
  let chars := match text.toList with
    | c :: rest => if c.val == 0xFEFF then rest else c :: rest
    | [] => []
  if chars.all isAllowed then
    (Lexer.run (chars.length + 1) (Lexer.start chars)).map Array.toList
  else none

end Yaml

end TypedClient
