import TypedClient.Decimal.Binary64
/-!
# Shortest decimal texts

The shortest decimal of a double has the fewest digits among the decimals
that round to it, and is the nearest of those. For each count of digits
only the two neighbours of the number on that decimal grid can be meant,
so both are tested in exact arithmetic. `Notation.text` lays the digits
out, positionally for sizes near one and with an exponent otherwise.
-/

namespace TypedClient

namespace Binary64

/-- A ratio of natural numbers, for comparisons. -/
structure Ratio where
  num : Nat
  den : Nat

/-- `n · base ^ k` as a ratio. -/
def Ratio.power (n base : Nat) (k : Int) : Ratio :=
  match k with
  | .ofNat k => ⟨n * Nat.pow base k, 1⟩
  | .negSucc k => ⟨n, Nat.pow base (k + 1)⟩

/-- Whether one ratio is below the other. -/
def Ratio.lt (x y : Ratio) : Bool := x.num * y.den < y.num * x.den

/-- The numbers that round to a double, in quarters of its last place:
from half a place below, or a quarter where the places below are finer,
to half a place above. The ends belong to it iff the significand is
even. -/
structure Interval where
  low : Ratio
  high : Ratio
  closed : Bool

/-- The interval of a nonzero double's size. -/
def interval (x : Binary64) : Interval :=
  let below := if x.significand = Nat.pow 2 52 && -1074 < x.exponent then 1 else 2
  ⟨.power (4 * x.significand - below) 2 (x.exponent - 2),
   .power (4 * x.significand + 2) 2 (x.exponent - 2), x.significand % 2 == 0⟩

/-- Whether a ratio lies in the interval. -/
def Interval.contains (i : Interval) (r : Ratio) : Bool :=
  if i.closed then !r.lt i.low && !i.high.lt r else i.low.lt r && r.lt i.high

/-- The number of places before the decimal point: the least `p` with the
size below `10 ^ p`. -/
def places (x : Binary64) : Int :=
  let p : Int := Int.fdiv ((x.significand.log2 + x.exponent) * 30103) 100000 + 1
  if Ratio.lt (.power x.significand 2 x.exponent) (.power 1 10 p) then p else p + 1

/-- On the grid of multiples of `10 ^ k`, the neighbour of the size that
rounds to the double, the nearer of two. -/
def onGrid? (x : Binary64) (k : Int) : Option Nat :=
  let size := Ratio.power x.significand 2 x.exponent
  let step := Ratio.power 1 10 k
  let n := (size.num * step.den) / (size.den * step.num)
  let fits (n : Nat) := x.interval.contains (.power n 10 k)
  match fits n, fits (n + 1) with
  | true, true =>
    let twice : Ratio := ⟨2 * size.num, size.den⟩
    let middle := Ratio.power (2 * n + 1) 10 k
    if twice.lt middle then some n else if middle.lt twice then some (n + 1)
    else if n % 2 = 0 then some n else some (n + 1)
  | true, false => some n
  | false, true => some (n + 1)
  | false, false => none

/-- The first grid with a hit, trying one more digit each time. -/
def firstOnGrid (x : Binary64) (p : Int) : Nat → Nat × Int
  | 0 => (x.significand, 0)
  | left + 1 =>
    let k := p - (17 - left : Nat)
    match x.onGrid? k with
    | some n => (n, k)
    | none => firstOnGrid x p left

/-- The shortest decimal of a nonzero double's size: its digits and the
power of ten of the last one. -/
def shortest (x : Binary64) : Nat × Int := firstOnGrid x x.places 17

end Binary64

/-- How numbers with an exponent are written: with a sign before a
positive exponent or without. -/
structure Notation where
  plusSign : Bool

namespace Notation

/-- The text of a number `0.d₁d₂… · 10 ^ p`: positional when its point
lies within the first sixteen places or at most four zeros before the
digits, and otherwise with one digit before the point. -/
def layout (f : Notation) (digits : List Char) (p : Int) : List Char :=
  let n : Int := digits.length
  if n ≤ p && p ≤ 16 then
    digits ++ List.replicate (p - n).toNat '0' ++ ['.', '0']
  else if 0 < p && p ≤ 16 then
    digits.take p.toNat ++ '.' :: digits.drop p.toNat
  else if -5 < p && p ≤ 0 then
    ['0', '.'] ++ List.replicate (-p).toNat '0' ++ digits
  else
    let exponent := p - 1
    let mark := if exponent < 0 then ['-'] else if f.plusSign then ['+'] else []
    let head := if digits.length ≤ 1 then digits else digits.take 1 ++ '.' :: digits.drop 1
    head ++ 'e' :: mark ++ Nat.toDigits 10 exponent.natAbs

/-- The digits of a number without trailing zeros. -/
def significantDigits (n : Nat) : List Char :=
  ((Nat.toDigits 10 n).reverse.dropWhile (· = '0')).reverse

/-- The shortest text of a double. -/
def text (f : Notation) (x : Binary64) : String :=
  let sign := if x.negative then ['-'] else []
  let body :=
    if x.significand = 0 then ['0', '.', '0']
    else
      let (n, k) := x.shortest
      f.layout (significantDigits n) ((Nat.toDigits 10 n).length + k)
  String.ofList (sign ++ body)

end Notation

end TypedClient
