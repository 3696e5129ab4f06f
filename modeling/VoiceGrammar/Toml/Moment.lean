/-
Dates and times in TOML.

A moment is a date, a time of day, or a date and a time with a `T` or a blank between
them; behind the two the offset from universal time may stand. Months have their length
in the Gregorian calendar, and a minute may end in a leap second. Moments are passed over
and not kept.
-/
import VoiceGrammar.Text.Numeral

namespace VoiceGrammar.Toml

set_option autoImplicit false

/-- A number of exactly `count` digits between two bounds, and what follows it. -/
def bounded? (count least greatest : Nat) (text : List Char) : Option (Nat × List Char) :=
  let digits := text.take count
  let value := Text.digitsValue digits
  if digits.length == count && digits.all Text.isDigit && least ≤ value && value ≤ greatest then
    some (value, text.drop count)
  else none

/-- What follows a character. -/
def behind? (c : Char) : List Char → Option (List Char)
  | [] => none
  | first :: rest => if first == c then some rest else none

def isLeapYear (year : Nat) : Bool :=
  year % 4 == 0 && (year % 100 != 0 || year % 400 == 0)

def monthLength (year month : Nat) : Nat :=
  if month == 2 then (if isLeapYear year then 29 else 28)
  else if month == 4 || month == 6 || month == 9 || month == 11 then 30
  else 31

/-- What follows a date. -/
def behindDate? (text : List Char) : Option (List Char) := do
  let (year, rest) ← bounded? 4 0 9999 text
  let (month, rest) ← bounded? 2 1 12 (← behind? '-' rest)
  let (_, rest) ← bounded? 2 1 (monthLength year month) (← behind? '-' rest)
  return rest

/-- What follows an hour and a minute. -/
def behindMinute? (text : List Char) : Option (List Char) := do
  let (_, rest) ← bounded? 2 0 23 text
  let (_, rest) ← bounded? 2 0 59 (← behind? ':' rest)
  return rest

/-- What follows the decimals of a second, if there are any. -/
def behindDecimals : List Char → List Char
  | '.' :: c :: rest => if Text.isDigit c then rest.dropWhile Text.isDigit else '.' :: c :: rest
  | text => text

/-- What follows a time of day. -/
def behindTime? (text : List Char) : Option (List Char) := do
  let rest ← behindMinute? text
  let (_, rest) ← bounded? 2 0 60 (← behind? ':' rest)
  return behindDecimals rest

/-- What follows an offset, if there is one. -/
def behindOffset : List Char → List Char
  | [] => []
  | c :: rest =>
    if c == 'Z' || c == 'z' then rest
    else if c == '+' || c == '-' then (behindMinute? rest).getD (c :: rest)
    else c :: rest

/-- What follows the time that may stand behind a date. -/
def behindDateTime : List Char → List Char
  | [] => []
  | c :: rest =>
    if c == 'T' || c == 't' || c == ' ' then
      match behindTime? rest with
      | some behind => behindOffset behind
      | none => c :: rest
    else c :: rest

/-- What follows the moment at the start of the text. -/
def moment? (text : List Char) : Option (List Char) :=
  match behindDate? text with
  | some rest => some (behindDateTime rest)
  | none => behindTime? text

end VoiceGrammar.Toml
