import TypedClient.Json.Basic
import TypedClient.Text.Blank
/-!
# Reading JSON text

`Json.read?` reads one value that fills a text. Only the four ASCII blanks
separate, at most `nestingLimit` arrays and objects stand inside each
other, and a repeated key keeps its first place and takes its last value.
A number without fraction and exponent that fits 64 bits stays an
integer; every other number is read as a double, through a significand of
at most 64 bits whose further digits only count.
-/

namespace TypedClient

namespace Json

namespace Reader

/-- How many arrays and objects may stand inside each other. -/
def nestingLimit : Nat := 127

/-- A blank between tokens. -/
def isSpace (c : Char) : Bool := c = ' ' || c = '\t' || c = '\n' || c = '\r'

/-- The text from the next token on. -/
def skip (s : List Char) : List Char := s.dropWhile isSpace

/-- The value of a hexadecimal digit. -/
def hexValue? (c : Char) : Option Nat :=
  if '0' ≤ c && c ≤ '9' then some (c.toNat - 48)
  else if 'a' ≤ c && c ≤ 'f' then some (c.toNat - 87)
  else if 'A' ≤ c && c ≤ 'F' then some (c.toNat - 55)
  else none

/-- The value of four hexadecimal digits. -/
def hexValue4? (a b c d : Char) : Option Nat := do
  let a ← hexValue? a
  let b ← hexValue? b
  let c ← hexValue? c
  let d ← hexValue? d
  return ((a * 16 + b) * 16 + c) * 16 + d

/-- The character of a one-letter escape. -/
def shortEscape? (c : Char) : Option Char :=
  match c with
  | '"' => some '"'
  | '\\' => some '\\'
  | '/' => some '/'
  | 'b' => some '\x08'
  | 'f' => some '\x0c'
  | 'n' => some '\n'
  | 'r' => some '\r'
  | 't' => some '\t'
  | _ => none

/-- Whether a 16-bit unit starts a pair. -/
def isLeading (n : Nat) : Bool := 0xD800 ≤ n && n ≤ 0xDBFF

/-- Whether a 16-bit unit ends a pair. -/
def isTrailing (n : Nat) : Bool := 0xDC00 ≤ n && n ≤ 0xDFFF

/-- The characters up to the closing quote, and the text after it. A
leading unit must be followed by an escaped trailing one. -/
def stringBody : List Char → Option (List Char × List Char)
  | [] => none
  | '"' :: rest => some ([], rest)
  | '\\' :: 'u' :: a :: b :: c :: d :: '\\' :: 'u' :: e :: f :: g :: h :: rest =>
    match hexValue4? a b c d with
    | none => none
    | some n =>
      if isTrailing n then none
      else if isLeading n then
        match hexValue4? e f g h with
        | none => none
        | some m =>
          if isTrailing m then
            (stringBody rest).map fun (s, rest) =>
              (Char.ofNat (0x10000 + (n - 0xD800) * 0x400 + (m - 0xDC00)) :: s, rest)
          else none
      else (stringBody ('\\' :: 'u' :: e :: f :: g :: h :: rest)).map fun (s, rest) =>
        (Char.ofNat n :: s, rest)
  | '\\' :: 'u' :: a :: b :: c :: d :: rest =>
    match hexValue4? a b c d with
    | none => none
    | some n =>
      if isLeading n || isTrailing n then none
      else (stringBody rest).map fun (s, rest) => (Char.ofNat n :: s, rest)
  | '\\' :: c :: rest =>
    match shortEscape? c with
    | none => none
    | some c => (stringBody rest).map fun (s, rest) => (c :: s, rest)
  | c :: rest =>
    if c.toNat < 0x20 || c = '\\' then none
    else (stringBody rest).map fun (s, rest) => (c :: s, rest)

/-- The greatest 64-bit number. -/
def greatest : Nat := Nat.pow 2 64 - 1

/-- A significand with further digits appended as long as it fits 64 bits,
and the digits that are left. -/
def extend (significand : Nat) : List Char → Nat × List Char
  | [] => (significand, [])
  | c :: rest =>
    let next := 10 * significand + Text.digitValue c
    if next ≤ greatest then extend next rest else (significand, c :: rest)

/-- A number without fraction and exponent. -/
def integerValue? (negative : Bool) (significand : Nat) : Option Number :=
  if !negative then some (.integer significand)
  else if 0 < significand && significand ≤ Nat.pow 2 63 then some (.integer (-significand))
  else (Binary64.nearest true significand 1).map .double

/-- The exponent part of a number, zero if there is none, and the text
after it. -/
def exponentPart (s : List Char) : Option (Bool × Int × List Char) :=
  match s with
  | c :: rest =>
    if c = 'e' || c = 'E' then
      let (negative, rest) := match rest with
        | '-' :: rest => (true, rest)
        | '+' :: rest => (false, rest)
        | rest => (false, rest)
      let digits := rest.takeWhile Char.isDigit
      if digits.isEmpty then none
      else
        let e : Int := Text.decimalValue digits
        some (true, if negative then -e else e, rest.dropWhile Char.isDigit)
    else some (false, 0, s)
  | [] => some (false, 0, s)

/-- A number after its sign. -/
def unsignedNumber? (negative : Bool) (s : List Char) : Option (Number × List Char) :=
  let digits := s.takeWhile Char.isDigit
  let rest := s.dropWhile Char.isDigit
  if digits.isEmpty || (digits.head? = some '0' && 1 < digits.length) then none
  else
    let (significand, beyond) := extend 0 digits
    match rest with
    | '.' :: rest =>
      let fraction := rest.takeWhile Char.isDigit
      if fraction.isEmpty then none
      else
        let (significand, left) := extend significand fraction
        let point : Int := beyond.length - (fraction.length - left.length : Nat)
        match exponentPart (rest.dropWhile Char.isDigit) with
        | none => none
        | some (_, e, rest) =>
          (Binary64.ofParts? negative significand (point + e)).map fun x => (.double x, rest)
    | rest =>
      match exponentPart rest with
      | none => none
      | some (marked, e, rest) =>
        if marked || !beyond.isEmpty then
          (Binary64.ofParts? negative significand (beyond.length + e)).map fun x =>
            (.double x, rest)
        else (integerValue? negative significand).map fun n => (n, rest)

/-- A number. -/
def number? : List Char → Option (Number × List Char)
  | '-' :: rest => unsignedNumber? true rest
  | s => unsignedNumber? false s

/-- The text after a word it starts with. -/
def dropWord? : List Char → List Char → Option (List Char)
  | [], s => some s
  | c :: word, d :: s => if c = d then dropWord? word s else none
  | _ :: _, [] => none

mutual

/-- The value at the start of a text, with at most `limit` levels of
nesting, and the text after it. The last argument bounds the number of
steps. -/
def value? (limit : Nat) : Nat → List Char → Option (Json × List Char)
  | 0, _ => none
  | steps + 1, s =>
    match skip s with
    | '"' :: rest => (stringBody rest).map fun (s, rest) => (.string (String.ofList s), rest)
    | '[' :: rest =>
      match limit with
      | 0 => none
      | limit + 1 =>
        match skip rest with
        | ']' :: rest => some (.array [], rest)
        | rest => (items? limit steps rest).map fun (items, rest) => (.array items, rest)
    | '\x7b' :: rest =>
      match limit with
      | 0 => none
      | limit + 1 =>
        match skip rest with
        | '\x7d' :: rest => some (.object [], rest)
        | rest => (members? limit steps [] rest).map fun (members, rest) => (.object members, rest)
    | 'n' :: rest => (dropWord? ['u', 'l', 'l'] rest).map fun rest => (.null, rest)
    | 't' :: rest => (dropWord? ['r', 'u', 'e'] rest).map fun rest => (.bool true, rest)
    | 'f' :: rest => (dropWord? ['a', 'l', 's', 'e'] rest).map fun rest => (.bool false, rest)
    | rest => (number? rest).map fun (n, rest) => (.number n, rest)

/-- The items up to the closing bracket. -/
def items? (limit : Nat) : Nat → List Char → Option (List Json × List Char)
  | 0, _ => none
  | steps + 1, s =>
    match value? limit steps s with
    | none => none
    | some (item, rest) =>
      match skip rest with
      | ',' :: rest => (items? limit steps rest).map fun (items, rest) => (item :: items, rest)
      | ']' :: rest => some ([item], rest)
      | _ => none

/-- The members up to the closing brace, added to those before. -/
def members? (limit : Nat) : Nat → List (String × Json) → List Char →
    Option (List (String × Json) × List Char)
  | 0, _, _ => none
  | steps + 1, before, s =>
    match skip s with
    | '"' :: rest =>
      match stringBody rest with
      | none => none
      | some (key, rest) =>
        match skip rest with
        | ':' :: rest =>
          match value? limit steps rest with
          | none => none
          | some (value, rest) =>
            let members := insert (String.ofList key) value before
            match skip rest with
            | ',' :: rest => members? limit steps members rest
            | '\x7d' :: rest => some (members, rest)
            | _ => none
        | _ => none
    | _ => none

end

end Reader

/-- The value that a text writes. Each character takes at most two
steps. -/
def read? (text : String) : Option Json :=
  let s := text.toList
  match Reader.value? Reader.nestingLimit (2 * s.length + 2) s with
  | some (value, rest) => if (Reader.skip rest).isEmpty then some value else none
  | none => none

end Json

end TypedClient
