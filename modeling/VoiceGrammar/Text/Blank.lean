/-
Blank characters of Unicode (property White_Space) and texts made of nothing else.
-/
namespace VoiceGrammar.Text

set_option autoImplicit false

def isBlank (c : Char) : Bool :=
  let code := c.toNat
  (0x9 ≤ code && code ≤ 0xD) || code == 0x20 || code == 0x85 || code == 0xA0 ||
    code == 0x1680 || (0x2000 ≤ code && code ≤ 0x200A) || code == 0x2028 || code == 0x2029 ||
    code == 0x202F || code == 0x205F || code == 0x3000

/-- Nothing would be left of the text after trimming it. -/
def allBlank (text : String) : Bool :=
  text.toList.all isBlank

end VoiceGrammar.Text
