/-
Numbers in TOML.

Single underscores may stand between digits. An integer is decimal, with an optional
sign and without leading zeros, or has one of the marks `0x`, `0o` and `0b` and no sign;
it has to fit a signed 64-bit word. A float is a decimal integer of any size with
decimals, an exponent or both, or one of the words `inf` and `nan`. A positive float must
not be too large for binary64.
-/
import VoiceGrammar.Number.Shortest
import VoiceGrammar.Text.Hexadecimal

namespace VoiceGrammar.Toml

set_option autoImplicit false

/-- Further digits of a run, and what follows it. -/
def moreDigits (digit : Char → Bool) : List Char → List Char × List Char
  | [] => ([], [])
  | '_' :: c :: rest =>
    if digit c then
      let (digits, behind) := moreDigits digit rest
      (c :: digits, behind)
    else ([], '_' :: c :: rest)
  | c :: rest =>
    if digit c then
      let (digits, behind) := moreDigits digit rest
      (c :: digits, behind)
    else ([], c :: rest)

/-- One or more digits, and what follows them. -/
def digits? (digit : Char → Bool) : List Char → Option (List Char × List Char)
  | [] => none
  | c :: rest =>
    if digit c then
      let (digits, behind) := moreDigits digit rest
      some (c :: digits, behind)
    else none

/-- Whether there is a minus sign, and what follows the sign if there is one. -/
def sign : List Char → Bool × List Char
  | '-' :: rest => (true, rest)
  | '+' :: rest => (false, rest)
  | text => (false, text)

/-- The digits of a decimal integer; a zero stands alone. -/
def whole? : List Char → Option (List Char × List Char)
  | '0' :: rest => some (['0'], rest)
  | text => digits? Text.isDigit text

/-- The digits of a base up to sixteen. -/
def isDigitOf (base : Nat) (c : Char) : Bool :=
  (Text.hexDigit? c).any (· < base)

/-- An integer of a base behind its mark. -/
def natural? (base : Nat) (text : List Char) : Option (Int × List Char) := do
  let (digits, rest) ← digits? (isDigitOf base) text
  let value : Nat := digits.foldl (fun value c => base * value + (Text.hexDigit? c).getD 0) 0
  if Text.fitsWord value then some (value, rest) else none

/-- The integer at the start of the text. -/
def integer? (text : List Char) : Option (Int × List Char) :=
  match text with
  | '0' :: 'x' :: rest => natural? 16 rest
  | '0' :: 'o' :: rest => natural? 8 rest
  | '0' :: 'b' :: rest => natural? 2 rest
  | _ => do
    let (negative, rest) := sign text
    let (digits, rest) ← whole? rest
    let magnitude : Int := Text.digitsValue digits
    let value := if negative then -magnitude else magnitude
    if Text.fitsWord value then some (value, rest) else none

/-- Whether a decimal is rounded to a binary64 number. With at most 308 digits before the
point it is, with more than 309 it is not. -/
def isFinite (decimal : Number.Decimal) : Bool :=
  let wholeDigits := (Nat.toDigits 10 decimal.coefficient).length + decimal.exponent
  if decimal.coefficient == 0 || wholeDigits < 309 then true
  else if wholeDigits > 309 then false
  else
    let (numerator, denominator) := Number.power 10 decimal.exponent
    (Number.Binary64.round? (decimal.coefficient * numerator) denominator).isSome

/-- The decimals behind a point, if there is one. -/
def decimals? : List Char → Option (List Char × List Char)
  | '.' :: rest => digits? Text.isDigit rest
  | text => some ([], text)

/-- The exponent behind its letter, if there is one. -/
def exponent? : List Char → Option (Option Int × List Char)
  | [] => some (none, [])
  | c :: rest =>
    if c == 'e' || c == 'E' then do
      let (negative, rest) := sign rest
      let (digits, rest) ← digits? Text.isDigit rest
      let magnitude : Int := Text.digitsValue digits
      return (some (if negative then -magnitude else magnitude), rest)
    else some (none, c :: rest)

/-- What follows the float at the start of the text. -/
def float? (text : List Char) : Option (List Char) :=
  match sign text with
  | (_, 'i' :: 'n' :: 'f' :: rest) => some rest
  | (_, 'n' :: 'a' :: 'n' :: rest) => some rest
  | (negative, rest) => do
    let (digits, rest) ← whole? rest
    let (decimals, rest) ← decimals? rest
    let (exponent, rest) ← exponent? rest
    if decimals.isEmpty && exponent.isNone then none
    let decimal : Number.Decimal :=
      ⟨Text.digitsValue (digits ++ decimals), exponent.getD 0 - decimals.length⟩
    if negative || isFinite decimal then some rest else none

end VoiceGrammar.Toml
