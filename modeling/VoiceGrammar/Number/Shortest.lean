/-
The shortest decimal text of a binary64 number.

The reals that round to a number form an interval around it; the ends belong to it if
the significand is even. Of the decimals in the interval those with the fewest digits
are wanted, and of these the one nearest to the number; halfway between two the
greater is taken. The text is positional, whatever the size of the number, and a whole
number has no decimal point.
-/
import VoiceGrammar.Number.Binary64
import VoiceGrammar.Text.Numeral

namespace VoiceGrammar.Number

set_option autoImplicit false

/-- The decimal `coefficient * 10 ^ exponent`. -/
structure Decimal where
  coefficient : Nat
  exponent : Int
  deriving DecidableEq, Repr

/-- A power with any exponent as a fraction. -/
def power (base : Nat) (exponent : Int) : Nat × Nat :=
  if exponent ≥ 0 then (Nat.pow base exponent.toNat, 1) else (1, Nat.pow base (-exponent).toNat)

/-- A number with the interval around it: all in quarters of the unit of its
significand. -/
structure Rounding where
  center : Nat
  below : Nat
  above : Nat
  exponent : Int
  closed : Bool

/-- Under a power of two the numbers lie half as far apart, so the interval ends there
sooner. -/
def Rounding.around (x : Binary64) : Rounding where
  center := 4 * x.significand
  below := if x.significand == Nat.pow 2 (Binary64.precision - 1) then 1 else 2
  above := 2
  exponent := x.exponent - 2
  closed := x.significand % 2 == 0

namespace Rounding

/-- The center and one quarter in units of `10 ^ scale`, over a common denominator. -/
structure Scaled where
  center : Nat
  quarter : Nat
  denominator : Nat

def scaled (r : Rounding) (scale : Int) : Scaled :=
  let (twos, halves) := power 2 r.exponent
  let (tens, tenths) := power 10 scale
  ⟨r.center * twos * tenths, twos * tenths, halves * tens⟩

/-- Whether `coefficient * 10 ^ scale` lies in the interval. -/
def contains (r : Rounding) (scale : Int) (coefficient : Nat) : Bool :=
  let s := r.scaled scale
  let point := coefficient * s.denominator
  let low := s.center - r.below * s.quarter
  let high := s.center + r.above * s.quarter
  if r.closed then low ≤ point && point ≤ high else low < point && point < high

/-- The nearer of the two multiples of `10 ^ scale` around the center that lie in the
interval. -/
def candidate? (r : Rounding) (scale : Int) : Option Decimal :=
  let s := r.scaled scale
  let lower := s.center / s.denominator
  match r.contains scale lower, r.contains scale (lower + 1) with
  | true, true =>
    if 2 * (s.center % s.denominator) < s.denominator then some ⟨lower, scale⟩
    else some ⟨lower + 1, scale⟩
  | true, false => some ⟨lower, scale⟩
  | false, true => some ⟨lower + 1, scale⟩
  | false, false => none

/-- The least exponent such that the center is below that power of ten. -/
def leadingExponent (r : Rounding) : Int :=
  let reaches (exponent : Int) : Bool :=
    let s := r.scaled exponent
    s.denominator ≤ s.center
  if reaches 0 then
    let whole := (List.range 310).find? fun (k : Nat) => !reaches (k + 1)
    whole.getD 0 + 1
  else
    match (List.range 330).find? fun (k : Nat) => reaches (-k - 1) with
    | some zeros => -zeros
    | none => 0

end Rounding

/-- Drop zeros at the end of the coefficient. -/
def Decimal.normalize : Nat → Decimal → Decimal
  | 0, d => d
  | count + 1, d =>
    if d.coefficient % 10 == 0 && d.coefficient != 0 then
      Decimal.normalize count ⟨d.coefficient / 10, d.exponent + 1⟩
    else d

/-- The shortest decimal that rounds to the number; 17 digits always suffice. -/
def shortest (x : Binary64) : Decimal :=
  if x.significand == 0 then ⟨0, 0⟩
  else
    let r := Rounding.around x
    let leading := r.leadingExponent
    let found := (List.range 17).findSome? fun (digits : Nat) =>
      r.candidate? (leading - (digits + 1))
    (found.getD ⟨0, 0⟩).normalize 20

/-- The decimal in positional notation. -/
def Decimal.text (d : Decimal) : String :=
  let digits := Nat.toDigits 10 d.coefficient
  if d.exponent ≥ 0 then
    String.ofList (digits ++ List.replicate d.exponent.toNat '0')
  else
    let places := (-d.exponent).toNat
    let padded := List.replicate (places + 1 - digits.length) '0' ++ digits
    let whole := padded.take (padded.length - places)
    String.ofList (whole ++ '.' :: padded.drop (padded.length - places))

end VoiceGrammar.Number
