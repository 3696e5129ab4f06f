/-
Number literals of JSON and the text they stand for.

An integer literal within a signed 64-bit word stands for itself. Every other number
is evaluated in binary64 arithmetic and printed in shortest form. The evaluation takes
as many leading digits as an unsigned 64-bit word holds, further whole digits count as
zeros and further decimals not at all; the result is multiplied or divided once by the
power of ten that the exponent asks for, twice if that power is too large to be a
number.
-/
import VoiceGrammar.Number.Shortest

namespace VoiceGrammar.Json

set_option autoImplicit false

open Number (Binary64)

/-- A literal taken apart. -/
structure NumberLiteral where
  negative : Bool
  whole : List Char
  decimals : Option (List Char)
  /-- The sign and the digits of the exponent. -/
  exponent : Option (Bool × List Char)
  deriving DecidableEq, Repr

namespace NumberLiteral

def maxUnsigned : Nat := Nat.pow 2 64 - 1

/-- Leading digits as a number, and the power of ten it is to be multiplied with. -/
structure Scaled where
  significand : Nat
  exponent : Int

/-- Take in whole digits. After the first that does not fit all of them count as zeros. -/
def takeWhole : Scaled → List Char → Scaled
  | s, [] => s
  | s, digit :: rest =>
    let next := 10 * s.significand + Text.digitValue digit
    if s.exponent == 0 && next ≤ maxUnsigned then takeWhole ⟨next, 0⟩ rest
    else takeWhole ⟨s.significand, s.exponent + 1⟩ rest

/-- Take in decimals up to the first that does not fit. -/
def takeDecimals : Scaled → List Char → Scaled
  | s, [] => s
  | s, digit :: rest =>
    let next := 10 * s.significand + Text.digitValue digit
    if next ≤ maxUnsigned then takeDecimals ⟨next, s.exponent - 1⟩ rest else s

def scaled (literal : NumberLiteral) : Scaled :=
  let s := takeDecimals (takeWhole ⟨0, 0⟩ literal.whole) (literal.decimals.getD [])
  match literal.exponent with
  | none => s
  | some (negative, digits) =>
    let exponent : Int := Text.digitsValue digits
    ⟨s.significand, if negative then s.exponent - exponent else s.exponent + exponent⟩

def powerOfTen (exponent : Nat) : Binary64 :=
  (Binary64.ofNat? (Nat.pow 10 exponent)).getD .zero

/-- The greatest power of ten that is a number. -/
def maxPower : Nat := 308

/-- The value of a scaled significand; none if it is too large. -/
def evaluate? (s : Scaled) : Option Binary64 := do
  let start ← Binary64.ofNat? s.significand
  if s.significand == 0 then return .zero
  if s.exponent > maxPower then none
  else if s.exponent ≥ 0 then start.mul? (powerOfTen s.exponent.toNat)
  else
    let down := (-s.exponent).toNat
    if down ≤ maxPower then start.div? (powerOfTen down)
    else if down ≤ 2 * maxPower then
      let once ← start.div? (powerOfTen maxPower)
      once.div? (powerOfTen (down - maxPower))
    else return .zero

/-- The integer that a literal without decimals and exponent denotes, if it fits a
64-bit word. A negative zero is no integer. -/
def word? (literal : NumberLiteral) : Option Int :=
  if literal.decimals.isSome || literal.exponent.isSome then none
  else
    let magnitude : Int := Text.digitsValue literal.whole
    if literal.negative then
      if magnitude == 0 || !Text.fitsWord (-magnitude) then none else some (-magnitude)
    else if Text.fitsWord magnitude then some magnitude else none

/-- The text of the number; none if it is too large. -/
def text? (literal : NumberLiteral) : Option String :=
  match literal.word? with
  | some value => some (Text.signedDecimal value)
  | none => (evaluate? literal.scaled).map fun value =>
      (if literal.negative then "-" else "") ++ (Number.shortest value).text

end NumberLiteral

end VoiceGrammar.Json
