/-!
# Finite double-precision numbers

A finite double is a sign, a significand below `2 ^ 53` and a power of
two. `Binary64.nearest` rounds an exact ratio to the nearest double,
a tie to the even significand; `Binary64.ofDecimal?` does so for a
decimal number and has no value when the number rounds to infinity.
Everything is computed on natural numbers.
-/

namespace TypedClient

/-- The number `± significand · 2 ^ exponent`. The significand is below
`2 ^ 53`, and at least `2 ^ 52` unless the exponent is the least one,
`-1074`, so that equal numbers of one sign are equal as data. -/
structure Binary64 where
  negative : Bool
  significand : Nat
  exponent : Int
deriving DecidableEq, Repr, Inhabited

namespace Binary64

/-- Zero, which has both signs. -/
def zero (negative : Bool) : Binary64 := ⟨negative, 0, -1074⟩

/-- The quotient rounded to the nearest integer, a half to the even one. -/
def roundDiv (num den : Nat) : Nat :=
  let q := num / den
  let twice := 2 * (num % den)
  if twice < den then q else if den < twice then q + 1 else if q % 2 = 0 then q else q + 1

/-- `num / den` times `2 ^ k`, as a ratio. -/
def scale (num den : Nat) (k : Int) : Nat × Nat :=
  match k with
  | .ofNat k => (num * Nat.pow 2 k, den)
  | .negSucc k => (num, den * Nat.pow 2 (k + 1))

/-- The double nearest to `num / den`, if that is finite. -/
def nearest (negative : Bool) (num den : Nat) : Option Binary64 :=
  if num = 0 then some (zero negative) else
    let low : Int := max (-1074) (num.log2 - den.log2 - 53)
    let (n, d) := scale num den (-low)
    let e := if Nat.pow 2 53 ≤ n / d then low + 1 else low
    let (n, d) := scale num den (-e)
    let m := roundDiv n d
    let (m, e) := if m = Nat.pow 2 53 then (Nat.pow 2 52, e + 1) else (m, e)
    if 971 < e then none else some ⟨negative, m, e⟩

/-- The double nearest to `digits · 10 ^ exponent`, if that is finite.
Numbers far outside the range of doubles are settled by their size. -/
def ofDecimal? (negative : Bool) (digits : Nat) (exponent : Int) : Option Binary64 :=
  if digits = 0 then some (zero negative) else
    let size : Int := (Nat.toDigits 10 digits).length + exponent
    if 310 < size then none
    else if size < -330 then some (zero negative)
    else match exponent with
      | .ofNat e => nearest negative (digits * Nat.pow 10 e) 1
      | .negSucc e => nearest negative digits (Nat.pow 10 (e + 1))

/-- The product rounded to a double, if that is finite. -/
def mul? (x y : Binary64) : Option Binary64 :=
  let (n, d) := scale (x.significand * y.significand) 1 (x.exponent + y.exponent)
  nearest (x.negative != y.negative) n d

/-- The quotient by a nonzero double rounded to a double, if that is
finite. -/
def div? (x y : Binary64) : Option Binary64 :=
  let (n, d) := scale x.significand y.significand (x.exponent - y.exponent)
  nearest (x.negative != y.negative) n d

/-- `significand · 10 ^ exponent` computed by doubles: the significand is
rounded, and the result is multiplied or divided by rounded powers of ten
up to `10 ^ 308`, each time with a rounding. There is no value when a
product is infinite. A quotient is zero after `steps` divisions at the
latest, if that many are left. -/
def stepwise? (significand : Binary64) (exponent : Int) : Nat → Option Binary64
  | 0 => some (zero significand.negative)
  | steps + 1 =>
    if exponent.natAbs ≤ 308 then
      match nearest false (Nat.pow 10 exponent.natAbs) 1 with
      | none => none
      | some power =>
        if 0 ≤ exponent then significand.mul? power else significand.div? power
    else if significand.significand = 0 then some significand
    else if 0 ≤ exponent then none
    else
      match nearest false (Nat.pow 10 308) 1 with
      | none => none
      | some power =>
        match significand.div? power with
        | none => none
        | some rest => stepwise? rest (exponent + 308) steps

/-- A significand and a power of ten, combined by doubles. -/
def ofParts? (negative : Bool) (significand : Nat) (exponent : Int) : Option Binary64 :=
  match nearest negative significand 1 with
  | none => none
  | some x => x.stepwise? exponent 4

/-- Whether two doubles are equal as numbers: zeros of both signs are. -/
def sameValue (x y : Binary64) : Bool :=
  x == y || (x.significand == 0 && y.significand == 0)

end Binary64

end TypedClient
