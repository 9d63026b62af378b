/-!
# Blank characters and trimming

A character is blank when it carries the white space property. Trimming
drops blank characters from the ends of a text; `lines` cuts a text at
line feeds, dropping one carriage return before each. All functions work
on lists of characters.
-/

namespace TypedClient

namespace Text

/-- The characters with the white space property: the five ASCII control
breaks, the space, and the wide, line and paragraph separators. -/
def isBlank (c : Char) : Bool :=
  (0x09 ≤ c.val && c.val ≤ 0x0D) || c.val == 0x20 || c.val == 0x85 || c.val == 0xA0 ||
  c.val == 0x1680 || (0x2000 ≤ c.val && c.val ≤ 0x200A) || c.val == 0x2028 ||
  c.val == 0x2029 || c.val == 0x202F || c.val == 0x205F || c.val == 0x3000

/-- The text without its leading blank characters. -/
def trimStart (s : List Char) : List Char := s.dropWhile isBlank

/-- The text without its trailing blank characters. -/
def trimEnd (s : List Char) : List Char :=
  s.foldr (fun c rest => if rest.isEmpty && isBlank c then [] else c :: rest) []

/-- The text without blank characters at either end. -/
def trim (s : List Char) : List Char := trimEnd (trimStart s)

/-- The parts of a text between occurrences of one character; a text
without it is one part. -/
def splitOn (sep : Char) : List Char → List (List Char)
  | [] => [[]]
  | c :: rest =>
    match splitOn sep rest with
    | [] => [[c]]
    | part :: parts => if c = sep then [] :: part :: parts else (c :: part) :: parts

/-- The words of a text: its maximal runs of characters that pass the
test. -/
def words (keep : Char → Bool) : List Char → List (List Char)
  | [] => []
  | [c] => if keep c then [[c]] else []
  | c :: d :: rest =>
    if keep c then
      match keep d, words keep (d :: rest) with
      | true, word :: more => (c :: word) :: more
      | _, more => [c] :: more
    else words keep (d :: rest)

/-- A line without the one carriage return it may end with. -/
def dropCarriageReturn : List Char → List Char
  | [] => []
  | ['\r'] => []
  | c :: rest => c :: dropCarriageReturn rest

/-- The lines of a text. A line feed ends a line, together with a carriage
return before it; a final line feed starts no further line. -/
def lines (s : List Char) : List (List Char) :=
  let parts := splitOn '\n' s
  parts.dropLast.map dropCarriageReturn ++ parts.getLast?.toList.filter (!·.isEmpty)

/-- Whether `part` occurs in the text. -/
def occursIn (part : List Char) : List Char → Bool
  | [] => part.isEmpty
  | c :: rest => part.isPrefixOf (c :: rest) || occursIn part rest

/-- The texts one after another with a separator between neighbours. -/
def join (sep : String) : List String → String
  | [] => ""
  | [s] => s
  | s :: t :: rest => s ++ sep ++ join sep (t :: rest)

/-- The texts one after another. -/
def concat : List String → String
  | [] => ""
  | s :: rest => s ++ concat rest

/-- The decimal digits of a number. -/
def decimal (n : Nat) : String := String.ofList (Nat.toDigits 10 n)

/-- The value of a decimal digit. -/
def digitValue (c : Char) : Nat := c.toNat - 48

/-- The value of a run of decimal digits. -/
def decimalValue (digits : List Char) : Nat :=
  digits.foldl (fun n c => 10 * n + digitValue c) 0

/-- Whether two texts agree up to the case of ASCII letters. -/
def equalIgnoringCase (s t : String) : Bool :=
  s.toList.map Char.toLower == t.toList.map Char.toLower

end Text

end TypedClient
