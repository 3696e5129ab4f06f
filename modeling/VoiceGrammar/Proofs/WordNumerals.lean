/-
# Integer texts read in one machine word

A numeral is at most one sign and one or more decimal digits (`Text.Numeral`). An integer
variable takes exactly the texts of numerals whose value is one of a signed 64-bit word.

`Text.word?` adds the digits up without a bound and looks at the sum. A reader that has one
word to add them up in has to look on the way (`Word.read?`): it multiplies by ten and adds
the next digit, or takes it away behind a minus, and stops where a product or a sum is no word.
Up to fifteen digits it adds up without looking. The two readers agree on every text
(`Word.map_toInt_read?`). The magnitude only grows from digit to digit, so every product and
every sum of a numeral whose value is a word is a word too (`Sign.exists_word_of_le`), and
no value of fifteen digits is out of range.
-/
import Mathlib.Data.List.Induction
import Mathlib.Data.Nat.Digits.Defs
import Mathlib.Data.Set.List
import VoiceGrammar.Proofs.DecodedValues

namespace VoiceGrammar

set_option autoImplicit false

namespace Text

/-! ## Numerals -/

/-- The sign in front of a numeral. -/
inductive Sign where
  | absent
  | plus
  | minus
  deriving DecidableEq, Repr

namespace Sign

def text : Sign → List Char
  | absent => []
  | plus => ['+']
  | minus => ['-']

/-- The number of a magnitude behind the sign. -/
def apply : Sign → Nat → Int
  | absent, magnitude => magnitude
  | plus, magnitude => magnitude
  | minus, magnitude => -(magnitude : Int)

/-- Another digit goes on in the direction of the sign. -/
theorem apply_extend (sign : Sign) (magnitude digit : Nat) :
    sign.apply (10 * magnitude + digit) = sign.apply magnitude * 10 + sign.apply digit := by
  cases sign with
  | absent => simp only [apply]; omega
  | plus => simp only [apply]; omega
  | minus => simp only [apply]; omega

/-- The greatest magnitude of a word behind the sign: negative words reach one further. -/
def limit : Sign → Nat
  | absent => 2 ^ 63 - 1
  | plus => 2 ^ 63 - 1
  | minus => 2 ^ 63

theorem le_limit (sign : Sign) {magnitude : Nat} (small : magnitude < 2 ^ 63) :
    magnitude ≤ sign.limit := by
  cases sign with
  | absent => exact Nat.le_pred_of_lt small
  | plus => exact Nat.le_pred_of_lt small
  | minus => exact Nat.le_of_lt small

theorem apply_tenfold (sign : Sign) (magnitude : Nat) :
    sign.apply (10 * magnitude) = sign.apply magnitude * 10 := by
  have zero : sign.apply 0 = 0 := by cases sign <;> rfl
  have shifted := sign.apply_extend magnitude 0
  rwa [zero, Int.add_zero, Nat.add_zero] at shifted

theorem exists_word_iff {sign : Sign} {magnitude : Nat} :
    (∃ word : Int64, word.toInt = sign.apply magnitude) ↔ magnitude ≤ sign.limit := by
  constructor
  · rintro ⟨word, exact⟩
    have least := word.le_toInt
    have greatest := word.toInt_lt
    rw [exact] at least greatest
    cases sign with
    | absent => simp only [apply, limit] at *; omega
    | plus => simp only [apply, limit] at *; omega
    | minus => simp only [apply, limit] at *; omega
  · intro le
    refine ⟨Int64.ofInt (sign.apply magnitude), ?_⟩
    apply Int64.toInt_ofInt_of_le
    · cases sign with
      | absent => simp only [apply]; omega
      | plus => simp only [apply]; omega
      | minus => simp only [apply, limit] at *; omega
    · cases sign with
      | absent => simp only [apply, limit] at *; omega
      | plus => simp only [apply, limit] at *; omega
      | minus => simp only [apply]; omega

/-- There is no gap between zero and a word. -/
theorem exists_word_of_le {sign : Sign} {word : Int64} {smaller greater : Nat}
    (exact : word.toInt = sign.apply greater) (le : smaller ≤ greater) :
    ∃ word : Int64, word.toInt = sign.apply smaller :=
  exists_word_iff.mpr (le.trans (exists_word_iff.mp ⟨word, exact⟩))

end Sign

/-- The number of a run of digits, the ones last. -/
def magnitude (digits : List (Fin 10)) : Nat :=
  Nat.ofDigits 10 (digits.map Fin.val).reverse

def digitChar (digit : Fin 10) : Char :=
  Nat.digitChar digit.val

/-- The digits as they are written. -/
def digitChars (digits : List (Fin 10)) : List Char :=
  digits.map digitChar

/-- At most one sign and one or more digits. -/
structure Numeral where
  sign : Sign
  digits : List (Fin 10)
  nonempty : digits ≠ []

namespace Numeral

def chars (n : Numeral) : List Char :=
  n.sign.text ++ digitChars n.digits

def text (n : Numeral) : String :=
  String.ofList n.chars

def value (n : Numeral) : Int :=
  n.sign.apply (magnitude n.digits)

end Numeral

theorem magnitude_concat (digits : List (Fin 10)) (digit : Fin 10) :
    magnitude (digits ++ [digit]) = 10 * magnitude digits + digit := by
  unfold magnitude
  rw [List.map_append, List.reverse_append, List.map_singleton, List.reverse_singleton,
    List.singleton_append, Nat.ofDigits_cons]
  omega

theorem magnitude_lt (digits : List (Fin 10)) : magnitude digits < 10 ^ digits.length := by
  have below : ∀ value ∈ (digits.map Fin.val).reverse, value < 10 := by
    intro value member
    obtain ⟨digit, -, rfl⟩ := List.mem_map.mp (List.mem_reverse.mp member)
    exact digit.isLt
  have bound := Nat.ofDigits_lt_base_pow_length (by decide) below
  rwa [List.length_reverse, List.length_map] at bound

theorem isDigit_digitChar (digit : Fin 10) : isDigit (digitChar digit) = true := by
  revert digit
  decide

theorem digitValue_digitChar (digit : Fin 10) : digitValue (digitChar digit) = digit := by
  revert digit
  decide

/-- The texts all of whose characters are digits. -/
theorem all_isDigit_iff {text : List Char} :
    (∀ c ∈ text, isDigit c = true) ↔ ∃ digits, digitChars digits = text := by
  constructor
  · intro all
    have each : ∀ c ∈ text, c ∈ Set.range digitChar := by
      intro c member
      have digit := all c member
      exact ⟨⟨digitValue c, (toNat_of_isDigit digit).2⟩, digitChar_digitValue digit⟩
    have run : text ∈ Set.range (List.map digitChar) := by
      rw [Set.range_list_map]
      exact each
    exact run
  · rintro ⟨digits, rfl⟩ c member
    obtain ⟨digit, -, rfl⟩ := List.mem_map.mp member
    exact isDigit_digitChar digit

theorem digitChars_ne_nil {digits : List (Fin 10)} : digitChars digits ≠ [] ↔ digits ≠ [] := by
  rw [digitChars, Ne, List.map_eq_nil_iff]

theorem digitChars_concat (digits : List (Fin 10)) (digit : Fin 10) :
    digitChars (digits ++ [digit]) = digitChars digits ++ [digitChar digit] :=
  List.map_append

theorem digitsValue_digitChars (digits : List (Fin 10)) :
    digitsValue (digitChars digits) = magnitude digits := by
  induction digits using List.reverseRecOn with
  | nil => rfl
  | append_singleton digits digit ih =>
      rw [digitChars_concat, digitsValue_concat, magnitude_concat, ih, digitValue_digitChar]

theorem isNatural_iff {text : List Char} {value : Nat} :
    IsNatural text value ↔
      ∃ digits, digits ≠ [] ∧ digitChars digits = text ∧ magnitude digits = value := by
  unfold IsNatural
  rw [all_isDigit_iff]
  constructor
  · rintro ⟨nonempty, ⟨digits, rfl⟩, rfl⟩
    exact ⟨digits, digitChars_ne_nil.mp nonempty, rfl, (digitsValue_digitChars digits).symm⟩
  · rintro ⟨digits, nonempty, rfl, rfl⟩
    exact ⟨digitChars_ne_nil.mpr nonempty, ⟨digits, rfl⟩, digitsValue_digitChars digits⟩

theorem isSigned_iff {text : List Char} {value : Int} :
    IsSigned text value ↔ ∃ n : Numeral, n.chars = text ∧ n.value = value := by
  constructor
  · intro signed
    cases signed with
    | plain natural =>
        obtain ⟨digits, nonempty, rfl, rfl⟩ := isNatural_iff.mp natural
        exact ⟨⟨.absent, digits, nonempty⟩, rfl, rfl⟩
    | plus natural =>
        obtain ⟨digits, nonempty, rfl, rfl⟩ := isNatural_iff.mp natural
        exact ⟨⟨.plus, digits, nonempty⟩, rfl, rfl⟩
    | minus natural =>
        obtain ⟨digits, nonempty, rfl, rfl⟩ := isNatural_iff.mp natural
        exact ⟨⟨.minus, digits, nonempty⟩, rfl, rfl⟩
  · rintro ⟨⟨sign, digits, nonempty⟩, rfl, rfl⟩
    have natural : IsNatural (digitChars digits) (magnitude digits) :=
      isNatural_iff.mpr ⟨digits, nonempty, rfl, rfl⟩
    cases sign with
    | absent => exact .plain natural
    | plus => exact .plus natural
    | minus => exact .minus natural

theorem Numeral.text_eq_iff {n : Numeral} {text : String} :
    n.text = text ↔ n.chars = text.toList := by
  rw [Numeral.text, ← String.toList_inj, String.toList_ofList]

theorem word?_eq_some_iff_numeral {text : String} {value : Int} :
    word? text = some value ↔
      (∃ n : Numeral, n.text = text ∧ n.value = value) ∧ -2 ^ 63 ≤ value ∧ value ≤ 2 ^ 63 - 1 := by
  have least : Int64.minValue.toInt = -2 ^ 63 := by decide
  have greatest : Int64.maxValue.toInt = 2 ^ 63 - 1 := by decide
  rw [word?_eq_some_iff, IsWord, isSigned_iff, least, greatest]
  simp only [Numeral.text_eq_iff]

/-! ## Arithmetic in a word -/

namespace Word

/-- A result that is held back if the operation overflowed. -/
def guarded (overflow : Bool) (result : Int64) : Option Int64 :=
  if overflow then none else some result

def times? (a b : Int64) : Option Int64 :=
  guarded (a.toBitVec.smulOverflow b.toBitVec) (a * b)

def plus? (a b : Int64) : Option Int64 :=
  guarded (a.toBitVec.saddOverflow b.toBitVec) (a + b)

def minus? (a b : Int64) : Option Int64 :=
  guarded (a.toBitVec.ssubOverflow b.toBitVec) (a - b)

/-- An operation that fails on overflow gives the exact number, if that is a word. -/
theorem guarded_eq_some_iff {overflow : Bool} {result word : Int64} {number : Int}
    (flagged : overflow = (decide (number ≥ 2 ^ 63) || decide (number < -2 ^ 63)))
    (computed : ¬ overflow = true → result.toInt = number) :
    guarded overflow result = some word ↔ word.toInt = number := by
  unfold guarded
  cases overflow with
  | true =>
      have outside : number ≥ 2 ^ 63 ∨ number < -2 ^ 63 := by simpa using flagged.symm
      have least := word.le_toInt
      have greatest := word.toInt_lt
      simp only [if_true, reduceCtorEq, false_iff]
      omega
  | false =>
      rw [if_neg Bool.false_ne_true, ← computed Bool.false_ne_true, Int64.toInt_inj,
        Option.some.injEq, eq_comm]

theorem times?_eq_some_iff {a b word : Int64} :
    times? a b = some word ↔ word.toInt = a.toInt * b.toInt :=
  guarded_eq_some_iff rfl fun fits => BitVec.toInt_mul_of_not_smulOverflow fits

theorem plus?_eq_some_iff {a b word : Int64} :
    plus? a b = some word ↔ word.toInt = a.toInt + b.toInt :=
  guarded_eq_some_iff rfl fun fits => BitVec.toInt_add_of_not_saddOverflow fits

theorem minus?_eq_some_iff {a b word : Int64} :
    minus? a b = some word ↔ word.toInt = a.toInt - b.toInt :=
  guarded_eq_some_iff rfl fun fits => BitVec.toInt_sub_of_not_ssubOverflow fits

theorem eq_of_guarded {overflow : Bool} {result word : Int64}
    (found : guarded overflow result = some word) : result = word := by
  unfold guarded at found
  split at found
  · cases found
  · exact Option.some.inj found

/-- Adding a digit to the word, in the direction of the sign. -/
def add? : Sign → Int64 → Int64 → Option Int64
  | .absent, word, digit => plus? word digit
  | .plus, word, digit => plus? word digit
  | .minus, word, digit => minus? word digit

/-- The same without a look at overflow. -/
def add : Sign → Int64 → Int64 → Int64
  | .absent, word, digit => word + digit
  | .plus, word, digit => word + digit
  | .minus, word, digit => word - digit

theorem add?_eq_some_iff {sign : Sign} {word next : Int64} {digit : Fin 10} :
    add? sign word (Int64.ofNat digit) = some next ↔
      next.toInt = word.toInt + sign.apply digit := by
  have small : (Int64.ofNat digit).toInt = (digit : Nat) := by
    apply Int64.toInt_ofNat_of_lt
    omega
  cases sign with
  | minus => rw [add?, minus?_eq_some_iff, small, Sign.apply, Int.sub_eq_add_neg]
  | plus => rw [add?, plus?_eq_some_iff, small, Sign.apply]
  | absent => rw [add?, plus?_eq_some_iff, small, Sign.apply]

theorem add_of_add? {sign : Sign} {word digit next : Int64}
    (found : add? sign word digit = some next) : add sign word digit = next := by
  cases sign with
  | minus => exact eq_of_guarded found
  | plus => exact eq_of_guarded found
  | absent => exact eq_of_guarded found

/-! ## The reader -/

def digit? (c : Char) : Option Int64 :=
  if isDigit c then some (Int64.ofNat (digitValue c)) else none

/-- One more digit behind those that are held. -/
def extend? (checked : Bool) (sign : Sign) (held : Int64) (c : Char) : Option Int64 :=
  (digit? c).bind fun digit =>
    if checked then (times? held 10).bind fun shifted => add? sign shifted digit
    else some (add sign (held * 10) digit)

/-- Fifteen digits are added up without a look at overflow. -/
def accumulate? (sign : Sign) (digits : List Char) : Option Int64 :=
  digits.foldlM (extend? (15 < digits.length) sign) 0

/-- The sign and what is behind it. -/
def cut : List Char → Sign × List Char
  | '+' :: digits => (.plus, digits)
  | '-' :: digits => (.minus, digits)
  | digits => (.absent, digits)

def read? (text : List Char) : Option Int64 :=
  if (cut text).2.isEmpty then none else accumulate? (cut text).1 (cut text).2

/-- The word that is held after the first digits of a numeral. -/
def held? (n : Numeral) (count : Nat) : Option Int64 :=
  (digitChars (n.digits.take count)).foldlM (extend? (15 < n.digits.length) n.sign) 0

theorem digit?_digitChar (digit : Fin 10) :
    digit? (digitChar digit) = some (Int64.ofNat digit) := by
  rw [digit?, if_pos (isDigit_digitChar digit), digitValue_digitChar]

theorem isDigit_of_extend? {checked : Bool} {sign : Sign} {held next : Int64} {c : Char}
    (found : extend? checked sign held c = some next) : isDigit c = true := by
  obtain ⟨digit, read, -⟩ := Option.bind_eq_some_iff.mp found
  unfold digit? at read
  split at read
  · assumption
  · cases read

/-- Where every look finds no overflow, the word is the one computed without a look. -/
theorem extend?_of_checked {sign : Sign} {held next : Int64} {c : Char}
    (found : extend? true sign held c = some next) : extend? false sign held c = some next := by
  obtain ⟨digit, read, found⟩ := Option.bind_eq_some_iff.mp found
  obtain ⟨shifted, product, sum⟩ := Option.bind_eq_some_iff.mp found
  rw [extend?, read, Option.bind_some, if_neg Bool.false_ne_true, eq_of_guarded product,
    add_of_add? sum]

theorem extend?_checked_eq_some_iff {sign : Sign} {held next : Int64} {number : Nat}
    {digit : Fin 10} (exact : held.toInt = sign.apply number) :
    extend? true sign held (digitChar digit) = some next ↔
      next.toInt = sign.apply (10 * number + digit) := by
  have ten : (10 : Int64).toInt = 10 := by decide
  rw [extend?, digit?_digitChar, Option.bind_some, if_pos rfl, Option.bind_eq_some_iff,
    Sign.apply_extend]
  simp only [times?_eq_some_iff, add?_eq_some_iff, ten, exact]
  constructor
  · rintro ⟨shifted, product, sum⟩
    rw [sum, product]
  · intro sum
    -- the product is no greater than the sum, which is a word
    have whole : next.toInt = sign.apply (10 * number + digit) := by rw [sum, Sign.apply_extend]
    obtain ⟨shifted, product⟩ := Sign.exists_word_of_le whole (Nat.le_add_right (10 * number) digit)
    rw [Sign.apply_tenfold] at product
    exact ⟨shifted, product, by rw [sum, product]⟩

/-- A step is exact, with a look at overflow always and without one as long as the number is
small. -/
theorem extend?_eq_some_iff {checked : Bool} {sign : Sign} {held next : Int64} {number : Nat}
    {digit : Fin 10} (exact : held.toInt = sign.apply number)
    (small : checked = false → 10 * number + digit < 2 ^ 63) :
    extend? checked sign held (digitChar digit) = some next ↔
      next.toInt = sign.apply (10 * number + digit) := by
  cases checked with
  | true => exact extend?_checked_eq_some_iff exact
  | false =>
      obtain ⟨word, fits⟩ : ∃ word : Int64, word.toInt = sign.apply (10 * number + digit) :=
        Sign.exists_word_iff.mpr (sign.le_limit (small rfl))
      have found := extend?_of_checked ((extend?_checked_eq_some_iff exact).mpr fits)
      rw [found, Option.some.injEq, ← fits, Int64.toInt_inj, eq_comm]

/-- Adding up is exact, with a look at overflow always and without one for few digits. -/
theorem foldlM_extend?_eq_some_iff {checked : Bool} {sign : Sign} {digits : List (Fin 10)}
    {word : Int64} (short : checked = false → digits.length ≤ 15) :
    (digitChars digits).foldlM (extend? checked sign) 0 = some word ↔
      word.toInt = sign.apply (magnitude digits) := by
  induction digits using List.reverseRecOn generalizing word with
  | nil =>
      have zero : sign.apply (magnitude []) = (0 : Int64).toInt := by cases sign <;> rfl
      rw [zero, Int64.toInt_inj]
      exact ⟨fun found => (Option.some.inj found).symm, fun same => congrArg some same.symm⟩
  | append_singleton digits digit ih =>
      have fewer : checked = false → digits.length ≤ 15 := by
        intro unchecked
        have := short unchecked
        rw [List.length_append, List.length_singleton] at this
        omega
      have small : checked = false → 10 * magnitude digits + digit < 2 ^ 63 := by
        intro unchecked
        rw [← magnitude_concat]
        calc magnitude (digits ++ [digit]) < 10 ^ (digits ++ [digit]).length := magnitude_lt _
          _ ≤ 10 ^ 15 := Nat.pow_le_pow_right (by decide) (short unchecked)
          _ < 2 ^ 63 := by decide
      have last (held : Int64) : (List.foldlM (extend? checked sign) held [digitChar digit]) =
          extend? checked sign held (digitChar digit) := by
        simp
      rw [digitChars_concat, List.foldlM_append, Option.bind_eq_bind, Option.bind_eq_some_iff,
        magnitude_concat]
      simp only [last, ih fewer]
      constructor
      · rintro ⟨held, exact, found⟩
        exact (extend?_eq_some_iff exact small).mp found
      · intro fits
        obtain ⟨held, exact⟩ : ∃ held : Int64, held.toInt = sign.apply (magnitude digits) :=
          Sign.exists_word_of_le fits (by omega)
        exact ⟨held, exact, (extend?_eq_some_iff exact small).mpr fits⟩

theorem held?_eq_some_iff {n : Numeral} {count : Nat} {word : Int64} :
    held? n count = some word ↔ word.toInt = n.sign.apply (magnitude (n.digits.take count)) := by
  apply foldlM_extend?_eq_some_iff
  intro unchecked
  have short : ¬ 15 < n.digits.length := by simpa using unchecked
  rw [List.length_take]
  omega

theorem all_isDigit_of_foldlM {checked : Bool} {sign : Sign} {text : List Char} {start word : Int64}
    (found : text.foldlM (extend? checked sign) start = some word) :
    ∀ c ∈ text, isDigit c = true := by
  induction text generalizing start with
  | nil => simp
  | cons c text ih =>
      rw [List.foldlM_cons] at found
      obtain ⟨next, step, rest⟩ := Option.bind_eq_some_iff.mp found
      rw [List.forall_mem_cons]
      exact ⟨isDigit_of_extend? step, ih rest⟩

theorem text_cut (text : List Char) : (cut text).1.text ++ (cut text).2 = text := by
  unfold cut
  split
  · rfl
  · rfl
  · rfl

theorem cut_chars (n : Numeral) : cut n.chars = (n.sign, digitChars n.digits) := by
  obtain ⟨sign, digits, nonempty⟩ := n
  cases sign with
  | plus => rfl
  | minus => rfl
  | absent =>
      have natural : IsNatural (digitChars digits) (magnitude digits) :=
        isNatural_iff.mpr ⟨digits, nonempty, rfl, rfl⟩
      have unsigned : Numeral.chars ⟨.absent, digits, nonempty⟩ = digitChars digits := rfl
      rw [unsigned]
      unfold cut
      split
      · rename_i spelled
        rw [spelled] at natural
        exact absurd rfl natural.head_ne.1
      · rename_i spelled
        rw [spelled] at natural
        exact absurd rfl natural.head_ne.2
      · rfl

theorem read?_chars (n : Numeral) : read? n.chars = held? n n.digits.length := by
  have filled : ¬ (digitChars n.digits).isEmpty = true := by
    rw [List.isEmpty_iff]
    exact digitChars_ne_nil.mpr n.nonempty
  have length : (digitChars n.digits).length = n.digits.length := List.length_map _
  rw [read?, cut_chars, if_neg filled, accumulate?, held?, length, List.take_length]

theorem read?_eq_some_iff {text : List Char} {word : Int64} :
    read? text = some word ↔ ∃ n : Numeral, n.chars = text ∧ n.value = word.toInt := by
  have exact (n : Numeral) : read? n.chars = some word ↔ n.value = word.toInt := by
    rw [read?_chars, held?_eq_some_iff, List.take_length, Numeral.value, eq_comm]
  constructor
  · intro found
    have spelled : ∃ n : Numeral, n.chars = text := by
      have nonempty : (cut text).2 ≠ [] := by
        intro empty
        simp [read?, empty] at found
      have added : accumulate? (cut text).1 (cut text).2 = some word := by
        rwa [read?, if_neg (by simpa using nonempty)] at found
      obtain ⟨digits, spelled⟩ := all_isDigit_iff.mp (all_isDigit_of_foldlM added)
      rw [← spelled, digitChars_ne_nil] at nonempty
      refine ⟨⟨(cut text).1, digits, nonempty⟩, ?_⟩
      calc (cut text).1.text ++ digitChars digits
          = (cut text).1.text ++ (cut text).2 := by rw [spelled]
        _ = text := text_cut text
    obtain ⟨n, rfl⟩ := spelled
    exact ⟨n, rfl, (exact n).mp found⟩
  · rintro ⟨n, rfl, value⟩
    exact (exact n).mpr value

/-- Adding up in one word and adding up without a bound read the same. -/
theorem map_toInt_read? (text : String) : (read? text.toList).map Int64.toInt = word? text := by
  ext value
  rw [word?_eq_some_iff_numeral, Option.map_eq_some_iff]
  simp only [read?_eq_some_iff, Numeral.text_eq_iff]
  constructor
  · rintro ⟨word, numeral, rfl⟩
    have least := word.le_toInt
    have greatest := word.toInt_lt
    exact ⟨numeral, least, by omega⟩
  · rintro ⟨numeral, least, greatest⟩
    have exact : (Int64.ofInt value).toInt = value := Int64.toInt_ofInt_of_le least (by omega)
    exact ⟨Int64.ofInt value, by rwa [exact], exact⟩

-- the last word on either side of zero, behind zeros, and the first number that is none
example : read? "-0000000009223372036854775808".toList = some Int64.minValue ∧
    read? "+9223372036854775807".toList = some Int64.maxValue ∧
    read? "9223372036854775808".toList = none := by
  decide +kernel

/-- The product of a step from digit to digit is exact too. -/
theorem toInt_mul_ten_of_held? {n : Numeral} {count : Nat} {word next : Int64}
    (inside : count < n.digits.length) (before : held? n count = some word)
    (after : held? n (count + 1) = some next) : (word * 10).toInt = word.toInt * 10 := by
  have ten : (10 : Int64).toInt = 10 := by decide
  rw [held?_eq_some_iff] at before after
  rw [List.take_succ_eq_append_getElem inside, magnitude_concat] at after
  obtain ⟨shifted, product⟩ := Sign.exists_word_of_le after (Nat.le_add_right _ _)
  rw [Sign.apply_tenfold, ← before, ← ten, ← times?_eq_some_iff] at product
  rw [eq_of_guarded product]
  have exact := times?_eq_some_iff.mp product
  rwa [ten] at exact

/-- Reading a numeral wraps nowhere: after any number of digits the word that is held is their
number, or there is no such word and none is held; and where a digit follows, the product
before it is added is exact as well. -/
structure ReadsExactly (n : Numeral) : Prop where
  result : read? n.chars = held? n n.digits.length
  held : ∀ count word, held? n count = some word ↔
    word.toInt = n.sign.apply (magnitude (n.digits.take count))
  product : ∀ count word next, count < n.digits.length → held? n count = some word →
    held? n (count + 1) = some next → (word * 10).toInt = word.toInt * 10

theorem readsExactly (n : Numeral) : ReadsExactly n where
  result := read?_chars n
  held _ _ := held?_eq_some_iff
  product _ _ _ := toInt_mul_ten_of_held?

end Word

end Text

/-! ## Integer variables -/

/-- A text for an integer variable is the text of a numeral whose value is one of a 64-bit word, and
is read in a word without overflow. Every other text is reported as it is. -/
theorem Model.decodeValue_integer_iff_numeral (model : Model) (name raw : String) :
    (∀ value, model.decodeValue name .integer raw = .ok (.integer value) ↔
      (∃ n : Text.Numeral, n.text = raw ∧ n.value = value) ∧
        -2 ^ 63 ≤ value ∧ value ≤ 2 ^ 63 - 1) ∧
    ((¬ ∃ n : Text.Numeral, n.text = raw ∧ -2 ^ 63 ≤ n.value ∧ n.value ≤ 2 ^ 63 - 1) →
      model.decodeValue name .integer raw = .error (.invalidInteger name raw)) ∧
    model.decodeValue name .integer raw =
      (match Text.Word.read? raw.toList with
      | some word => .ok (.integer word.toInt)
      | none => .error (.invalidInteger name raw)) ∧
    ∀ n : Text.Numeral, n.text = raw → Text.Word.ReadsExactly n := by
  have read := Text.Word.map_toInt_read? raw
  refine ⟨fun value => ?_, fun none => ?_, ?_, fun n _ => Text.Word.readsExactly n⟩
  · rw [← Text.word?_eq_some_iff_numeral]
    unfold decodeValue
    cases Text.word? raw with
    | none => simp
    | some word => simp
  · unfold decodeValue
    cases found : Text.word? raw with
    | none => rfl
    | some value =>
        obtain ⟨⟨n, spelled, rfl⟩, range⟩ := Text.word?_eq_some_iff_numeral.mp found
        exact absurd ⟨n, spelled, range⟩ none
  · unfold decodeValue
    rw [← read]
    cases Text.Word.read? raw.toList with
    | none => rfl
    | some word => rfl

end VoiceGrammar
