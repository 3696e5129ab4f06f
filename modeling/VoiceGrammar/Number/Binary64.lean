/-
Non-negative numbers of the binary64 format, in exact arithmetic.

A number is `significand * 2 ^ exponent` with a significand below `2 ^ 53` and an
exponent from -1074 to 971. A fraction is rounded to the nearest such number; halfway
between two of them the one with an even significand is taken. What would need a
greater exponent is too large.
-/
namespace VoiceGrammar.Number

set_option autoImplicit false

structure Binary64 where
  significand : Nat
  exponent : Int
  deriving DecidableEq, Repr

namespace Binary64

def precision : Nat := 53

def minExponent : Int := -1074

def maxExponent : Int := 971

def zero : Binary64 := ⟨0, minExponent⟩

/-- The greatest `e` with `2 ^ e ≤ numerator / denominator`, for positive arguments. -/
def magnitude (numerator denominator : Nat) : Int :=
  let estimate : Int := numerator.log2 - denominator.log2
  let reaches :=
    if estimate ≥ 0 then denominator * Nat.pow 2 estimate.toNat ≤ numerator
    else denominator ≤ numerator * Nat.pow 2 (-estimate).toNat
  if reaches then estimate else estimate - 1

/-- A quotient rounded to the nearest integer, halves to the even one. -/
def roundQuotient (numerator denominator : Nat) : Nat :=
  let quotient := numerator / denominator
  let remainder := numerator % denominator
  if 2 * remainder > denominator || (2 * remainder == denominator && quotient % 2 == 1) then
    quotient + 1
  else quotient

/-- The number nearest to `numerator / denominator`; none if the fraction is too large. -/
def round? (numerator denominator : Nat) : Option Binary64 :=
  if numerator == 0 then some zero
  else
    let exponent := max (magnitude numerator denominator - (precision - 1)) minExponent
    let significand :=
      if exponent ≥ 0 then roundQuotient numerator (denominator * Nat.pow 2 exponent.toNat)
      else roundQuotient (numerator * Nat.pow 2 (-exponent).toNat) denominator
    let rounded : Binary64 :=
      if significand == Nat.pow 2 precision then ⟨Nat.pow 2 (precision - 1), exponent + 1⟩
      else ⟨significand, exponent⟩
    if rounded.exponent > maxExponent then none else some rounded

/-- The number as a fraction. -/
def fraction (x : Binary64) : Nat × Nat :=
  if x.exponent ≥ 0 then (x.significand * Nat.pow 2 x.exponent.toNat, 1)
  else (x.significand, Nat.pow 2 (-x.exponent).toNat)

def ofNat? (n : Nat) : Option Binary64 :=
  round? n 1

def mul? (x y : Binary64) : Option Binary64 :=
  round? (x.fraction.1 * y.fraction.1) (x.fraction.2 * y.fraction.2)

/-- The quotient by a positive number. -/
def div? (x y : Binary64) : Option Binary64 :=
  round? (x.fraction.1 * y.fraction.2) (x.fraction.2 * y.fraction.1)

end Binary64

end VoiceGrammar.Number
