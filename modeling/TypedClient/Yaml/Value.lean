import TypedClient.Yaml.Node
import TypedClient.Decimal.Binary64
import TypedClient.Text.Blank
/-!
# YAML values

`Value.ofScalar?` says what a scalar means: null, a truth value, a number
or a text. Numbers are integers in four bases or decimals; leading zeros
make a text. Values are compared as keys of mappings: numbers by value
within their kind, and mappings whatever the order of their entries.
-/

namespace TypedClient

namespace Yaml

/-- A number that is not an integer. -/
inductive Real where
  | finite (x : Binary64)
  | infinite (negative : Bool)
  | nan
deriving DecidableEq, Repr

/-- Equality of numbers; zeros of both signs are equal, and what is no
number equals itself. -/
def Real.same : Real → Real → Bool
  | .finite x, .finite y => x.sameValue y
  | .infinite m, .infinite n => m == n
  | .nan, .nan => true
  | _, _ => false

/-- A YAML value. -/
inductive Value where
  | null
  | bool (b : Bool)
  | integer (n : Int)
  | real (x : Real)
  | string (s : String)
  | sequence (items : List Value)
  | mapping (entries : List (Value × Value))
  /-- A value with a tag of its own. -/
  | tagged (tag : String) (value : Value)

namespace Value

instance : Inhabited Value := ⟨.null⟩

/-- The text behind a word it starts with. -/
def dropWord? : List Char → List Char → Option (List Char)
  | [], s => some s
  | c :: word, d :: s => if c == d then dropWord? word s else none
  | _ :: _, [] => none

/-- The text behind a sign of one kind, if it has one. -/
def dropSign (sign : Char) : List Char → List Char
  | c :: rest => if c == sign then rest else c :: rest
  | [] => []

/-- The words for null. -/
def isNull (s : String) : Bool := s == "null" || s == "Null" || s == "NULL" || s == "~"

/-- The truth value of a word. -/
def bool? (s : String) : Option Bool :=
  if s == "true" || s == "True" || s == "TRUE" then some true
  else if s == "false" || s == "False" || s == "FALSE" then some false
  else none

/-- The value of digits in a base, if there are any. -/
def digits? (base : Nat) (s : List Char) : Option Nat :=
  if s.isEmpty then none
  else s.foldl (fun n? c => do
    let n ← n?
    let d ← Scalar.hexValue? c
    if base ≤ d then none
    return base * n + d) (some 0)

/-- Whether a text is digits with a zero before others. -/
def isZeroPadded (s : List Char) : Bool :=
  let digits := match s with
    | '-' :: rest => rest
    | '+' :: rest => rest
    | rest => rest
  match digits with
  | '0' :: d :: rest => (d :: rest).all Char.isDigit
  | _ => false

/-- The value of digits behind the mark of their base. -/
def based? (s : List Char) : Option Nat :=
  match s with
  | '0' :: 'x' :: rest => digits? 16 rest
  | '0' :: 'o' :: rest => digits? 8 rest
  | '0' :: 'b' :: rest => digits? 2 rest
  | _ => none

/-- The sign and size of an integer. -/
def integer? (s : List Char) : Option (Bool × Nat) :=
  let size? (body : List Char) : Option Nat :=
    match based? body with
    | some n => some n
    | none => if isZeroPadded s then none else digits? 10 body
  match s with
  | '-' :: body => (size? body).map fun n => (true, n)
  | '+' :: body => (size? body).map fun n => (false, n)
  | body => (size? body).map fun n => (false, n)

/-- What an integer of a size means. -/
inductive Magnitude where
  /-- It fits 64 bits. -/
  | fits (n : Int)
  /-- It fits 128 bits only, which no value holds. -/
  | tooLarge
  /-- It is no integer. -/
  | beyond

/-- The magnitude of an integer. -/
def magnitude : Bool × Nat → Magnitude
  | (false, n) =>
    if n < Nat.pow 2 64 then .fits n else if n < Nat.pow 2 128 then .tooLarge else .beyond
  | (true, n) =>
    if n ≤ Nat.pow 2 63 then .fits (-n) else if n ≤ Nat.pow 2 127 then .tooLarge else .beyond

/-- The double nearest to a decimal with a point or an exponent or
neither, if it is finite. -/
def decimal? (negative : Bool) (s : List Char) : Option Binary64 :=
  let whole := s.takeWhile Char.isDigit
  let (fraction, rest) := match s.dropWhile Char.isDigit with
    | '.' :: rest => (rest.takeWhile Char.isDigit, rest.dropWhile Char.isDigit)
    | rest => ([], rest)
  if whole.isEmpty && fraction.isEmpty then none
  else
    let exponent : Option Int := match rest with
      | [] => some 0
      | c :: rest =>
        if c == 'e' || c == 'E' then
          match rest with
          | '-' :: digits => (digits? 10 digits).map fun n => -n
          | '+' :: digits => (digits? 10 digits).map Int.ofNat
          | digits => (digits? 10 digits).map Int.ofNat
        else none
    match exponent with
    | some e =>
      Binary64.ofDecimal? negative (Text.decimalValue (whole ++ fraction)) (e - fraction.length)
    | none => none

/-- A number that is not an integer: an infinity, what is no number, or a
finite decimal. -/
def real? (s : String) : Option Real :=
  let chars := s.toList
  let positive := match chars with
    | '+' :: rest => String.ofList rest
    | _ => s
  if positive == ".inf" || positive == ".Inf" || positive == ".INF" then some (.infinite false)
  else if s == "-.inf" || s == "-.Inf" || s == "-.INF" then some (.infinite true)
  else if s == ".nan" || s == ".NaN" || s == ".NAN" then some .nan
  else
    match chars with
    | '-' :: rest => (decimal? true rest).map .finite
    | '+' :: rest => (decimal? false rest).map .finite
    | rest => (decimal? false rest).map .finite

/-- What an untagged plain scalar means. An integer that does not fit has
no meaning. -/
def ofPlain? (s : String) : Option Value :=
  if s.isEmpty || isNull s then some .null
  else
    match bool? s with
    | some b => some (.bool b)
    | none =>
      match (integer? s.toList).map magnitude with
      | some (.fits n) => some (.integer n)
      | some .tooLarge => none
      | _ =>
        if isZeroPadded s.toList then some (.string s)
        else
          match real? s with
          | some x => some (.real x)
          | none => some (.string s)

/-- The tag of its own that a full tag gives to a value: what starts with
an exclamation mark, which does not count unless it is all. -/
def ownTag? (tag : String) : Option String :=
  match tag.toList with
  | ['!'] => some "!"
  | '!' :: rest => some (String.ofList rest)
  | _ => none

/-- A value with the tag of its own, if it has one. -/
def withTag (tag : Option String) (value : Value) : Value :=
  match tag.bind ownTag? with
  | some t => .tagged t value
  | none => value

/-- What a scalar means. The standard tags ask for a meaning; other full
tags make it a text. -/
def ofScalar? (tag : Option String) (style : Style) (s : String) : Option Value :=
  let untagged := if style == .plain then ofPlain? s else some (.string s)
  match tag with
  | none => untagged
  | some "tag:yaml.org,2002:bool" => (bool? s).map .bool
  | some "tag:yaml.org,2002:int" =>
    match (integer? s.toList).map magnitude with
    | some (.fits n) => some (.integer n)
    | _ => none
  | some "tag:yaml.org,2002:float" => (real? s).map .real
  | some "tag:yaml.org,2002:null" => if isNull s then some .null else none
  | some t =>
    match ownTag? t with
    | some own => untagged.map (.tagged own)
    | none => some (.string s)

mutual

/-- Equality of values as keys. -/
def same : Value → Value → Bool
  | .null, .null => true
  | .bool a, .bool b => a == b
  | .integer m, .integer n => m == n
  | .real x, .real y => x.same y
  | .string s, .string t => s == t
  | .sequence as, .sequence bs => sameItems as bs
  | .mapping as, .mapping bs => as.length == bs.length && sameEntries as bs
  | .tagged s a, .tagged t b => s == t && same a b
  | _, _ => false
termination_by structural a => a

/-- Equality of items. -/
def sameItems : List Value → List Value → Bool
  | [], [] => true
  | a :: as, b :: bs => same a b && sameItems as bs
  | _, _ => false
termination_by structural as => as

/-- Whether each entry has an equal one among others. -/
def sameEntries : List (Value × Value) → List (Value × Value) → Bool
  | [], _ => true
  | (k, v) :: as, bs => bs.any (fun (l, w) => same k l && same v w) && sameEntries as bs
termination_by structural as => as

end

end Value

end Yaml

end TypedClient
