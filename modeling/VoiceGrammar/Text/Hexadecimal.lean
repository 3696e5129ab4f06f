/-
Hexadecimal digits, in either case, and the characters that codes name.
-/
namespace VoiceGrammar.Text

set_option autoImplicit false

def hexDigit? (c : Char) : Option Nat :=
  if '0' ≤ c && c ≤ '9' then some (c.toNat - '0'.toNat)
  else if 'a' ≤ c && c ≤ 'f' then some (c.toNat - 'a'.toNat + 10)
  else if 'A' ≤ c && c ≤ 'F' then some (c.toNat - 'A'.toNat + 10)
  else none

def hexValue? (digits : List Char) : Option Nat :=
  digits.foldlM (fun value digit => do return value * 16 + (← hexDigit? digit)) 0

/-- The character of a code; surrogates and codes beyond the last plane are none. -/
def charOfCode? (code : Nat) : Option Char :=
  if (0xD800 ≤ code && code ≤ 0xDFFF) || code > 0x10FFFF then none else some (Char.ofNat code)

end VoiceGrammar.Text
