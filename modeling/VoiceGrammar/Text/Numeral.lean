/-
Decimal numerals: digits and their value, and the signed numerals that fit a
64-bit word.

A signed numeral is at most one sign followed by one or more ASCII digits; zeros
may lead. It is read only if its value lies in `[-2^63, 2^63 - 1]`.
-/
namespace VoiceGrammar.Text

set_option autoImplicit false

def isDigit (c : Char) : Bool :=
  '0' ≤ c && c ≤ '9'

def digitValue (c : Char) : Nat :=
  c.toNat - '0'.toNat

/-- The number that a run of digits denotes. -/
def digitsValue (digits : List Char) : Nat :=
  digits.foldl (fun value digit => 10 * value + digitValue digit) 0

/-- The value of one or more digits, and of nothing else. -/
def natural? (text : List Char) : Option Nat :=
  if text.isEmpty || !text.all isDigit then none else some (digitsValue text)

/-- The value of a numeral with an optional sign. -/
def signed? : List Char → Option Int
  | '+' :: digits => (natural? digits).map Int.ofNat
  | '-' :: digits => (natural? digits).map fun magnitude => -Int.ofNat magnitude
  | digits => (natural? digits).map Int.ofNat

/-- The value range of a signed 64-bit word. -/
def fitsWord (value : Int) : Bool :=
  -9223372036854775808 ≤ value && value ≤ 9223372036854775807

/-- A signed numeral whose value fits a 64-bit word. -/
def word? (text : String) : Option Int :=
  (signed? text.toList).filter fitsWord

/-- Decimal digits of a number, without leading zeros. -/
def decimal (value : Nat) : String :=
  String.ofList (Nat.toDigits 10 value)

def signedDecimal (value : Int) : String :=
  if value < 0 then "-" ++ decimal value.natAbs else decimal value.natAbs

end VoiceGrammar.Text
