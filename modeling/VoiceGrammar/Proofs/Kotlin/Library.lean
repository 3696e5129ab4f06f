/-
# How Kotlin reads a character and an integer

The two functions of the Kotlin library through which a decoder reads primitive values.
A text is a sequence of UTF-16 code units there, and `singleOrNull` gives the unit of a
text that has exactly one; a character above `U+FFFF` has two and is not read
(`singleOrNull_eq_some_iff`). `toIntOrNull` reads a signed numeral whose value is one of
the 32-bit type `Int` (`toIntOrNull_eq_some_iff`).
-/
import VoiceGrammar.Proofs.DecodedValues

namespace VoiceGrammar.Decoder.Kotlin

set_option autoImplicit false

/-! ## Characters -/

/-- The UTF-16 code units of a character. -/
def utf16 (c : Char) : List UInt16 :=
  if c.toNat < 0x10000 then [UInt16.ofNat c.toNat]
  else
    let offset := c.toNat - 0x10000
    [UInt16.ofNat (0xD800 + offset / 0x400), UInt16.ofNat (0xDC00 + offset % 0x400)]

/-- `String.singleOrNull` -/
def singleOrNull (text : String) : Option UInt16 :=
  match text.toList.flatMap utf16 with
  | [unit] => some unit
  | _ => none

theorem utf16_of_lt {c : Char} (narrow : c.toNat < 0x10000) :
    utf16 c = [UInt16.ofNat c.toNat] := by
  rw [utf16, if_pos narrow]

theorem one_le_length_utf16 (c : Char) : 1 ≤ (utf16 c).length := by
  unfold utf16
  split
  · simp
  · simp

/-- Only a character below `U+10000` has one code unit. -/
theorem length_utf16_eq_one {c : Char} : (utf16 c).length = 1 ↔ c.toNat < 0x10000 := by
  unfold utf16
  split
  · simp_all
  · simp_all

theorem singleOrNull_eq_some_iff {text : String} {unit : UInt16} :
    singleOrNull text = some unit ↔
      ∃ c, text.toList = [c] ∧ c.toNat < 0x10000 ∧ unit.toNat = c.toNat := by
  unfold singleOrNull
  constructor
  · intro read
    split at read
    · rename_i only units
      cases read
      have total : (text.toList.flatMap utf16).length = 1 := by rw [units]; rfl
      -- every character has a unit, so there is one character only, and it has one unit
      cases spelled : text.toList with
      | nil => simp [spelled] at total
      | cons c rest =>
          rw [spelled, List.flatMap_cons, List.length_append] at total
          have here := one_le_length_utf16 c
          cases rest with
          | cons d rest =>
              have there := one_le_length_utf16 d
              rw [List.flatMap_cons, List.length_append] at total
              omega
          | nil =>
              have narrow : c.toNat < 0x10000 := length_utf16_eq_one.mp (by simpa using total)
              refine ⟨c, rfl, narrow, ?_⟩
              have same : unit = UInt16.ofNat c.toNat := by
                simpa [spelled, utf16_of_lt narrow, eq_comm] using units
              rw [same, UInt16.toNat_ofNat', Nat.mod_eq_of_lt narrow]
    · cases read
  · rintro ⟨c, spelled, narrow, same⟩
    have found : UInt16.ofNat c.toNat = unit := by
      rw [← UInt16.toNat_inj, UInt16.toNat_ofNat', Nat.mod_eq_of_lt narrow, same]
    simp [spelled, utf16_of_lt narrow, found]

/-! ## Integers -/

/-- The value range of `Int`, which has 32 bits. -/
def fitsInt (value : Int) : Bool :=
  -2147483648 ≤ value && value ≤ 2147483647

/-- `String.toIntOrNull` -/
def toIntOrNull (text : String) : Option Int32 :=
  ((Text.signed? text.toList).filter fitsInt).map Int32.ofInt

theorem fitsInt_toInt (value : Int32) : fitsInt value.toInt = true := by
  have least := value.le_toInt
  have greatest := value.toInt_lt
  rw [fitsInt, Bool.and_eq_true, decide_eq_true_iff, decide_eq_true_iff]
  omega

theorem toInt_ofInt_of_fitsInt {value : Int} (fits : fitsInt value = true) :
    (Int32.ofInt value).toInt = value := by
  rw [fitsInt, Bool.and_eq_true, decide_eq_true_iff, decide_eq_true_iff] at fits
  exact Int32.toInt_ofInt_of_le (by omega) (by omega)

theorem toIntOrNull_eq_some_iff {text : String} {value : Int32} :
    toIntOrNull text = some value ↔ Text.IsSigned text.toList value.toInt := by
  unfold toIntOrNull
  rw [Option.map_eq_some_iff]
  constructor
  · rintro ⟨found, read, rfl⟩
    obtain ⟨signed, fits⟩ := Option.filter_eq_some_iff.mp read
    rw [toInt_ofInt_of_fitsInt fits]
    exact Text.signed?_eq_some_iff.mp signed
  · intro signed
    have read := Option.filter_eq_some_iff.mpr
      ⟨Text.signed?_eq_some_iff.mpr signed, fitsInt_toInt value⟩
    exact ⟨value.toInt, read, value.ofInt_toInt⟩

/-- Every `Int` is a signed 64-bit word. -/
theorem toIntOrNull_eq_word? (text : String) :
    toIntOrNull text = ((Text.word? text).filter fitsInt).map Int32.ofInt := by
  have narrower : ∀ value, (Text.fitsWord value && fitsInt value) = fitsInt value := by
    intro value
    unfold Text.fitsWord fitsInt
    rw [Bool.and_eq_right_iff_imp]
    simp only [Bool.and_eq_true, decide_eq_true_iff]
    omega
  rw [toIntOrNull, Text.word?, Option.filter_filter]
  simp only [narrower]

end VoiceGrammar.Decoder.Kotlin
