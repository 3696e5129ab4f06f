/-
# The integers of a JSON document

An integer literal is written as the decimal of its value (`Text.toDigits_digitsValue`). One that
fits a 64-bit word is read as it is written (`Json.NumberLiteral.text?_of_fitsWord`). Every other one is
evaluated as a binary64 number, and what is read is the shortest decimal of that, which may be
another integer. But it is always greater than those that fit a word
(`Json.NumberLiteral.lt_digitsValue_of_shortest`), so an integer within the words is mistaken for no
other.
-/
import VoiceGrammar.Proofs.ListedItems
import VoiceGrammar.Proofs.RoundTrip
import VoiceGrammar.Proofs.ShortestDecimals

namespace VoiceGrammar

set_option autoImplicit false

/-! ## Digits -/

namespace Text

theorem digitsValue_append_zeros (digits : List Char) (zeros : Nat) :
    digitsValue (digits ++ List.replicate zeros '0') = digitsValue digits * 10 ^ zeros := by
  induction zeros with
  | zero => simp
  | succ zeros ih =>
      rw [List.replicate_succ', ← List.append_assoc, digitsValue_concat, ih, Nat.pow_succ']
      have zero : digitValue '0' = 0 := rfl
      rw [zero]
      ring

/-- Digits without a leading zero are the decimal of their value. -/
theorem toDigits_digitsValue {digits : List Char} (digital : Json.NumberLiteral.AreDigits digits)
    (unpadded : digits.head? = some '0' → digits = ['0']) :
    Nat.toDigits 10 (digitsValue digits) = digits := by
  obtain ⟨filled, digital⟩ := digital
  induction digits using List.reverseRecOn with
  | nil => exact absurd rfl filled
  | append_singleton front digit ih =>
      have last := digital digit (by simp)
      rw [digitsValue_concat]
      cases front with
      | nil =>
          have single : 10 * digitsValue [] + digitValue digit = digitValue digit := by
            simp [digitsValue]
          rw [single, Nat.toDigits_of_lt_base (toNat_of_isDigit last).2, digitChar_digitValue last]
          rfl
      | cons first later =>
          have nonzero : first ≠ '0' := by
            rintro rfl
            simpa using unpadded rfl
          have before := ih (by simp [nonzero]) (by simp)
            (fun c member => digital c (List.mem_append_left _ member))
          have positive : 0 < digitsValue (first :: later) := by
            apply Nat.pos_of_ne_zero
            intro zero
            rw [zero] at before
            exact nonzero (List.cons.inj before).1.symm
          rw [← Nat.toDigits_append_toDigits (by decide) positive (toNat_of_isDigit last).2, before,
            Nat.toDigits_of_lt_base (toNat_of_isDigit last).2, digitChar_digitValue last]

end Text

/-! ## Literals -/

namespace Json.NumberLiteral

open Number (Binary64)

variable {literal other : NumberLiteral} {chars : List Char}

def value (literal : NumberLiteral) : Int :=
  if literal.negative then -(Text.digitsValue literal.whole : Int)
  else Text.digitsValue literal.whole

/-- The literal fits a word, or its digits are the shortest decimal of the binary64 number that it is
evaluated to. -/
def ReadsBack (literal : NumberLiteral) : Prop :=
  Text.fitsWord literal.value = true ∨
    (evaluate? literal.scaled).map (fun x => (Number.shortest x).text) =
      some (String.ofList literal.whole)

instance (literal : NumberLiteral) : Decidable literal.ReadsBack :=
  inferInstanceAs (Decidable (_ ∨ _))

theorem word?_of_isInteger (integer : literal.IsInteger) :
    literal.word? = if literal.negative = true ∧ literal.value = 0 then none
      else if Text.fitsWord literal.value = true then some literal.value else none := by
  unfold word? value
  rw [integer.1, integer.2]
  cases literal.negative with
  | false => simp
  | true =>
      by_cases zero : Text.digitsValue literal.whole = 0
      · simp [zero]
      · cases fits : Text.fitsWord (-(Text.digitsValue literal.whole : Int)) <;> simp [zero, fits]

theorem eq_negativeZero (written : literal.Written chars) (integer : literal.IsInteger)
    (negative : literal.negative = true) (zero : literal.value = 0) :
    literal = ⟨true, ['0'], none, none⟩ := by
  have digits := Text.toDigits_digitsValue written.digital written.unpadded
  have nothing : Text.digitsValue literal.whole = 0 := by simpa [value, negative] using zero
  rw [nothing] at digits
  obtain ⟨sign, whole, decimals, exponent⟩ := literal
  obtain ⟨rfl, rfl⟩ := integer
  subst negative
  rw [← show _ = whole from digits]
  rfl

theorem signedDecimal_value (written : literal.Written chars)
    (signed : ¬(literal.negative = true ∧ literal.value = 0)) :
    Text.signedDecimal literal.value = String.ofList literal.integerPart := by
  have digits := Text.toDigits_digitsValue written.digital written.unpadded
  unfold value integerPart Text.signedDecimal Text.decimal at *
  cases negative : literal.negative with
  | false => simp [digits]
  | true =>
      have positive : 0 < Text.digitsValue literal.whole := by
        apply Nat.pos_of_ne_zero
        intro zero
        simp [negative, zero] at signed
      simp [digits, positive]

/-- **An integer that fits a word is read as it is written.** -/
theorem text?_of_fitsWord (written : literal.Written chars) (integer : literal.IsInteger)
    (fits : Text.fitsWord literal.value = true) :
    literal.text? = some (String.ofList literal.integerPart) := by
  by_cases signed : literal.negative = true ∧ literal.value = 0
  · obtain ⟨negative, zero⟩ := signed
    rw [eq_negativeZero written integer negative zero]
    decide +kernel
  · have word : literal.word? = some literal.value := by
      rw [word?_of_isInteger integer, if_neg signed, if_pos fits]
    rw [← signedDecimal_value written signed, text?, word]

theorem text?_of_not_fitsWord (integer : literal.IsInteger)
    (beyond : ¬ Text.fitsWord literal.value = true) :
    literal.text? = (evaluate? literal.scaled).map fun x =>
      String.ofList ((if literal.negative then ['-'] else []) ++ (Number.shortest x).text.toList) := by
  unfold text?
  rw [word?_of_isInteger integer, if_neg beyond, ite_self]
  cases literal.negative with
  | false => simp
  | true => simp

theorem text?_eq_some_iff (written : literal.Written chars) (integer : literal.IsInteger) :
    literal.text? = some (String.ofList literal.integerPart) ↔ literal.ReadsBack := by
  by_cases fits : Text.fitsWord literal.value = true
  · exact ⟨fun _ => .inl fits, fun _ => text?_of_fitsWord written integer fits⟩
  · rw [text?_of_not_fitsWord integer fits, ReadsBack, or_iff_right fits, Option.map_eq_some_iff,
      Option.map_eq_some_iff]
    refine exists_congr fun x => and_congr_right fun _ => ?_
    rw [String.ofList_inj, integerPart, List.append_cancel_left_eq, ← String.ofList_inj,
      String.ofList_toList]

/-! ## Evaluation -/

theorem takeWhole_of_pos {s : Scaled} (full : 0 < s.exponent) (digits : List Char) :
    takeWhole s digits = ⟨s.significand, s.exponent + digits.length⟩ := by
  induction digits generalizing s with
  | nil => simp [takeWhole]
  | cons digit digits ih =>
      have skipped : ¬ (s.exponent == 0 &&
          decide (10 * s.significand + Text.digitValue digit ≤ maxUnsigned)) := by
        simp [full.ne']
      rw [takeWhole, if_neg skipped, ih (by dsimp only; omega)]
      simp only [List.length_cons, Scaled.mk.injEq, true_and]
      omega

/-- Either all digits have been taken in, or as many as a word holds. -/
theorem takeWhole_cases {digits : List Char} (digital : ∀ c ∈ digits, Text.isDigit c = true)
    (start : Nat) :
    takeWhole ⟨start, 0⟩ digits =
        ⟨digits.foldl (fun value digit => 10 * value + Text.digitValue digit) start, 0⟩ ∨
      0 < (takeWhole ⟨start, 0⟩ digits).exponent ∧
        2 ^ 60 ≤ (takeWhole ⟨start, 0⟩ digits).significand := by
  induction digits generalizing start with
  | nil => exact .inl rfl
  | cons digit digits ih =>
      rw [List.forall_mem_cons] at digital
      by_cases fits : 10 * start + Text.digitValue digit ≤ maxUnsigned
      · rw [takeWhole, if_pos (by simpa using fits)]
        exact ih digital.2 _
      · -- A significand that one more digit takes past the unsigned words is large itself.
        right
        have small := (Text.toNat_of_isDigit digital.1).2
        have most : maxUnsigned = 18446744073709551615 := by decide
        rw [takeWhole, if_neg (by simpa using fits), takeWhole_of_pos (by dsimp only; omega)]
        exact ⟨by dsimp only; omega, by dsimp only; omega⟩

theorem scaled_of_isInteger (integer : literal.IsInteger) :
    literal.scaled = takeWhole ⟨0, 0⟩ literal.whole := by
  unfold scaled
  rw [integer.1, integer.2]
  rfl

theorem exists_ofNat?_ten_pow {n : Nat} (small : n ≤ maxPower) :
    ∃ ten, Binary64.ofNat? (10 ^ n) = some ten := by
  have each : ∀ n ∈ List.range (maxPower + 1), (Binary64.ofNat? (Nat.pow 10 n)).isSome = true := by
    decide +kernel
  exact Option.isSome_iff_exists.mp (each n (List.mem_range.mpr (Nat.lt_succ_of_le small)))

/-- A number that is not zero is multiplied once. -/
theorem evaluate?_eq_some {s : Scaled} {x : Binary64} (whole : 0 ≤ s.exponent)
    (found : evaluate? s = some x) :
    (s.significand = 0 ∧ x = .zero) ∨ ∃ start ten, Binary64.ofNat? s.significand = some start ∧
      Binary64.ofNat? (10 ^ s.exponent.toNat) = some ten ∧ start.mul? ten = some x := by
  obtain ⟨start, rounded, found⟩ := Option.bind_eq_some_iff.mp found
  dsimp only at found
  split at found
  · rename_i zero
    cases found
    exact .inl ⟨by simpa using zero, rfl⟩
  · split at found
    · cases found
    · rename_i small
      obtain ⟨ten, power⟩ := @exists_ofNat?_ten_pow s.exponent.toNat (by omega)
      have same : powerOfTen s.exponent.toNat = ten := by
        rw [powerOfTen, Nat.pow_eq, power, Option.getD_some]
      rw [same] at found
      exact .inr ⟨start, ten, rounded, power, found⟩

theorem regular_of_evaluate? {s : Scaled} {x : Binary64} (whole : 0 ≤ s.exponent)
    (found : evaluate? s = some x) : x.Regular := by
  rcases evaluate?_eq_some whole found with ⟨-, rfl⟩ | ⟨start, ten, -, -, product⟩
  · exact Binary64.regular_zero
  · exact Binary64.regular_of_mul? product

theorem le_value_of_ofNat? {n k : Nat} {x : Binary64} (rounded : Binary64.ofNat? n = some x)
    (large : 2 ^ k ≤ n) : (2 : ℚ) ^ (k : Int) ≤ x.value := by
  have least : Binary64.minExponent = -1074 := rfl
  apply Binary64.le_value_of_round? Nat.one_pos rounded (by omega)
  rw [Nat.cast_one, div_one, zpow_natCast]
  exact_mod_cast large

theorem exponent_scaled_nonneg (digital : AreDigits literal.whole) (integer : literal.IsInteger) :
    0 ≤ literal.scaled.exponent := by
  rw [scaled_of_isInteger integer]
  rcases takeWhole_cases digital.2 0 with all | ⟨cut, -⟩
  · rw [all]
  · exact cut.le

theorem le_digitsValue_of_not_fitsWord (beyond : ¬ Text.fitsWord literal.value = true) :
    2 ^ 63 ≤ Text.digitsValue literal.whole := by
  rw [Text.fitsWord, Bool.and_eq_true, decide_eq_true_iff, decide_eq_true_iff] at beyond
  unfold value at beyond
  split at beyond <;> omega

theorem digitsValue_le_of_fitsWord (fits : Text.fitsWord literal.value = true) :
    Text.digitsValue literal.whole ≤ 2 ^ 63 := by
  rw [Text.fitsWord, Bool.and_eq_true, decide_eq_true_iff, decide_eq_true_iff] at fits
  unfold value at fits
  split at fits <;> omega

/-- Beyond the words an integer is evaluated to a number that is not below `2 ^ 63`. -/
theorem large_of_evaluate? {x : Binary64} (digital : AreDigits literal.whole)
    (integer : literal.IsInteger) (beyond : ¬ Text.fitsWord literal.value = true)
    (found : evaluate? literal.scaled = some x) :
    2 ^ 52 ≤ x.significand ∧ 11 ≤ x.exponent := by
  have large := le_digitsValue_of_not_fitsWord beyond
  -- If digits have been cut off, their power of ten makes up for them.
  have split : ∃ j k : Nat, j + k = 63 ∧ 2 ^ j ≤ literal.scaled.significand ∧
      2 ^ k ≤ 10 ^ literal.scaled.exponent.toNat := by
    rw [scaled_of_isInteger integer]
    rcases takeWhole_cases digital.2 0 with all | ⟨cut, many⟩
    · rw [all]
      exact ⟨63, 0, rfl, large, le_rfl⟩
    · have tenfold : 1 ≤ (takeWhole ⟨0, 0⟩ literal.whole).exponent.toNat := by omega
      refine ⟨60, 3, rfl, many, ?_⟩
      calc 2 ^ 3
        _ ≤ 10 ^ 1 := by decide
        _ ≤ 10 ^ (takeWhole ⟨0, 0⟩ literal.whole).exponent.toNat :=
          Nat.pow_le_pow_right (by decide) tenfold
  obtain ⟨j, k, sum, significand, power⟩ := split
  rcases evaluate?_eq_some (exponent_scaled_nonneg digital integer) found with
    ⟨zero, -⟩ | ⟨start, ten, first, second, product⟩
  · rw [zero] at significand
    exact absurd significand (Nat.not_le.mpr (Nat.two_pow_pos j))
  · have least : Binary64.minExponent = -1074 := rfl
    obtain ⟨normal, exponent⟩ := Binary64.large_of_mul? product (le_value_of_ofNat? first significand)
      (le_value_of_ofNat? second power) (by omega)
    exact ⟨normal, by omega⟩

/-! ## What is read determines the literal -/

theorem minus_not_mem_of_digital {digits : List Char}
    (digital : ∀ c ∈ digits, Text.isDigit c = true) : '-' ∉ digits :=
  fun member => absurd (digital '-' member) (by decide)

theorem minus_not_mem_text (d : Number.Decimal) : '-' ∉ d.text.toList := by
  have digits : '-' ∉ Nat.toDigits 10 d.coefficient :=
    minus_not_mem_of_digital (Text.isNatural_toDigits d.coefficient).2.1
  have zeros : ∀ count, '-' ∉ List.replicate count '0' := by
    intro count member
    exact absurd (List.eq_of_mem_replicate member) (by decide)
  unfold Number.Decimal.text
  dsimp only
  split
  · rw [String.toList_ofList, List.mem_append, not_or]
    exact ⟨digits, zeros _⟩
  · have padded : ∀ count, '-' ∉ List.replicate count '0' ++ Nat.toDigits 10 d.coefficient := by
      intro count
      rw [List.mem_append, not_or]
      exact ⟨zeros _, digits⟩
    rw [String.toList_ofList, List.mem_append, List.mem_cons, not_or, not_or]
    exact ⟨mt List.mem_of_mem_take (padded _), by decide, mt List.mem_of_mem_drop (padded _)⟩

/-- A sign and what stands behind it are told apart. -/
theorem sign_append_inj {negative negative' : Bool} {unsigned unsigned' : List Char}
    (first : '-' ∉ unsigned) (second : '-' ∉ unsigned')
    (same : (if negative then ['-'] else []) ++ unsigned =
      (if negative' then ['-'] else []) ++ unsigned') :
    negative = negative' ∧ unsigned = unsigned' := by
  cases negative with
  | false =>
      cases negative' with
      | false => exact ⟨rfl, same⟩
      | true =>
          have equal : unsigned = '-' :: unsigned' := same
          exact absurd (equal ▸ List.mem_cons_self) first
  | true =>
      cases negative' with
      | false =>
          have equal : '-' :: unsigned = unsigned' := same
          exact absurd (equal ▸ List.mem_cons_self) second
      | true => exact ⟨rfl, (List.cons.inj same).2⟩

theorem eq_of_integerPart_eq {chars' : List Char} (written : literal.Written chars)
    (integer : literal.IsInteger) (written' : other.Written chars') (integer' : other.IsInteger)
    (same : literal.integerPart = other.integerPart) : literal = other := by
  obtain ⟨sign, digits⟩ := sign_append_inj (minus_not_mem_of_digital written.digital.2)
    (minus_not_mem_of_digital written'.digital.2) same
  obtain ⟨negative, whole, decimals, exponent⟩ := literal
  obtain ⟨negative', whole', decimals', exponent'⟩ := other
  obtain ⟨rfl, rfl⟩ := integer
  obtain ⟨rfl, rfl⟩ := integer'
  cases sign
  cases digits
  rfl

/-- Beyond the words, what is read is beyond the words. -/
theorem lt_digitsValue_of_shortest {x : Binary64} (digital : AreDigits literal.whole)
    (integer : literal.IsInteger) (beyond : ¬ Text.fitsWord literal.value = true)
    (found : evaluate? literal.scaled = some x) {digits : List Char}
    (digital' : ∀ c ∈ digits, Text.isDigit c = true)
    (shown : (Number.shortest x).text = String.ofList digits) :
    2 ^ 63 < Text.digitsValue digits := by
  obtain ⟨normal, large⟩ := large_of_evaluate? digital integer beyond found
  have regular := regular_of_evaluate? (exponent_scaled_nonneg digital integer) found
  have bound := Number.lt_value_shortest regular normal large
  obtain ⟨whole, same⟩ := Number.Decimal.eq_of_text_eq digital' shown
  obtain ⟨exponent, exponentEq⟩ := Int.eq_ofNat_of_zero_le whole
  have value : Text.digitsValue digits = (Number.shortest x).coefficient * 10 ^ exponent := by
    rw [same, Text.digitsValue_append_zeros, (Text.isNatural_toDigits _).2.2, exponentEq,
      Int.toNat_natCast]
  rw [Number.Decimal.value, exponentEq, zpow_natCast] at bound
  rw [value]
  exact_mod_cast bound

theorem eq_of_text?_eq {chars' : List Char} (written : literal.Written chars)
    (integer : literal.IsInteger) (written' : other.Written chars') (integer' : other.IsInteger)
    (distinct : Text.fitsWord literal.value = true ∨ literal.ReadsBack ∧ other.ReadsBack)
    {read : String} (first : literal.text? = some read) (second : other.text? = some read) :
    literal = other := by
  have reads : literal.ReadsBack := distinct.elim .inl (·.1)
  have same : read = String.ofList literal.integerPart :=
    Option.some.inj (first.symm.trans ((text?_eq_some_iff written integer).mpr reads))
  by_cases reads' : other.ReadsBack
  · have same' : read = String.ofList other.integerPart :=
      Option.some.inj (second.symm.trans ((text?_eq_some_iff written' integer').mpr reads'))
    exact eq_of_integerPart_eq written integer written' integer'
      (String.ofList_injective (same.symm.trans same'))
  · -- The other literal does not fit a word, so what is read is beyond the words.
    have fits := distinct.resolve_right fun both => reads' both.2
    have beyond : ¬ Text.fitsWord other.value = true := fun fits => reads' (.inl fits)
    rw [text?_of_not_fitsWord integer' beyond, same] at second
    obtain ⟨x, found, shown⟩ := Option.map_eq_some_iff.mp second
    obtain ⟨-, digits⟩ := sign_append_inj (minus_not_mem_text _)
      (minus_not_mem_of_digital written.digital.2) (String.ofList_injective shown)
    have large := lt_digitsValue_of_shortest written'.digital integer' beyond found
      written.digital.2 (by rw [← digits, String.ofList_toList])
    exact absurd (digitsValue_le_of_fitsWord fits) (Nat.not_le.mpr large)

theorem significantDigits_le_of_readsBack (written : literal.Written chars)
    (integer : literal.IsInteger) (reads : literal.ReadsBack) :
    Text.fitsWord literal.value = true ∨ Number.significantDigits literal.whole ≤ 17 := by
  refine reads.imp_right fun shown => ?_
  obtain ⟨x, found, shown⟩ := Option.map_eq_some_iff.mp shown
  exact Number.significantDigits_le_of_shortest
    (regular_of_evaluate? (exponent_scaled_nonneg written.digital integer) found)
    written.digital.2 shown

end Json.NumberLiteral

/-! ## Documents -/

namespace Json.Node

/-- The item stands in a list of the document where the text stands in that list of the grammar. -/
def Contributes (root : Node) (grammar : Grammar) (item : Node) (text : String) : Prop :=
  ∃ (map : ContextMap) (name : String) (items : List Node) (texts : List String) (position : Nat),
    root.list? map name = some items ∧ (map.inGrammar grammar).lookup name = some texts ∧
    items[position]? = some item ∧ texts[position]? = some text

/-- Document and grammar have lists of the same lengths under the same names, each name being in
the grammar once. -/
def Corresponds (root : Node) (grammar : Grammar) : Prop :=
  ∀ map : ContextMap, ((map.inGrammar grammar).map Prod.fst).Nodup ∧ ∀ name,
    Option.Rel (fun items texts => items.length = texts.length) (root.list? map name)
      ((map.inGrammar grammar).lookup name)

/-- The literals of a list that holds numbers only. -/
def literals? : List Node → Option (List NumberLiteral)
  | [] => some []
  | number literal :: nodes => (literals? nodes).map (literal :: ·)
  | _ => none

theorem eq_map_of_literals? {nodes : List Node} {literals : List NumberLiteral}
    (found : literals? nodes = some literals) : nodes = literals.map number := by
  induction nodes generalizing literals with
  | nil =>
      cases found
      rfl
  | cons node nodes ih =>
      cases node with
      | number literal =>
          obtain ⟨rest, read, rfl⟩ := Option.map_eq_some_iff.mp found
          rw [List.map_cons, ← ih read]
      | null | bool | string | array | object => cases found

end Json.Node

namespace Grammar

open Json (Node NumberLiteral)

variable {text : String} {grammar : Grammar} {root : Node}

/-- What an item contributes has been read from it, and the item is written in the document. -/
theorem jsonItem?_of_contributes (parsed : Node.parse? text = some root)
    (lists : ∀ map name,
      Option.Rel (List.Forall₂ fun item read => Outline.jsonItem? item = some read)
        (root.list? map name) ((map.inGrammar grammar).lookup name))
    {item : Node} {read : String} (contributes : root.Contributes grammar item read) :
    Outline.jsonItem? item = some read ∧ item.WrittenWithin text.toList := by
  obtain ⟨map, name, items, texts, position, listed, named, item, text⟩ := contributes
  have related := lists map name
  rw [listed, named] at related
  cases related with
  | some each =>
      obtain ⟨inItems, rfl⟩ := List.getElem?_eq_some_iff.mp item
      obtain ⟨inTexts, rfl⟩ := List.getElem?_eq_some_iff.mp text
      exact ⟨each.get inItems inTexts,
        Node.writtenWithin_of_list? (Node.written_of_parse? parsed) listed (List.getElem_mem inItems)⟩

/-- **Which integers of a JSON document are read as they are written.** The document is one tree
between blanks, and its lists are those of the grammar. An integer literal in one of them is read as
it is written exactly if it fits a 64-bit word or is the shortest decimal of its binary64 number; in
the latter case it has at most seventeen digits before the zeros at its end. Two literals from which
the same text is read are the same, if one of them fits a word or both are read as they are
written. -/
theorem json_integers_read_back_iff (parsed : parse text .json = .ok grammar) :
    ∃ root, Node.parse? text = some root ∧ root.WrittenApart text.toList ∧
      root.Corresponds grammar ∧
      (∀ literal read, root.Contributes grammar (.number literal) read → literal.IsInteger →
        literal.integerPart <:+: text.toList ∧
        (read = String.ofList literal.integerPart ↔ literal.ReadsBack) ∧
        (literal.ReadsBack → Text.fitsWord literal.value = true ∨
          Number.significantDigits literal.whole ≤ 17)) ∧
      ∀ literal other read, root.Contributes grammar (.number literal) read →
        root.Contributes grammar (.number other) read → literal.IsInteger → other.IsInteger →
        (Text.fitsWord literal.value = true ∨ literal.ReadsBack ∧ other.ReadsBack) →
        literal = other := by
  obtain ⟨root, found, lists⟩ := lists_of_parse parsed
  have spelled : ∀ literal read, root.Contributes grammar (.number literal) read →
      literal.text? = some read ∧
        ∃ chars, literal.Written chars ∧ chars <:+: text.toList := by
    intro literal read contributes
    obtain ⟨told, chars, written, held⟩ := jsonItem?_of_contributes found lists contributes
    cases written with
    | number spelled => exact ⟨told, chars, spelled, held⟩
  refine ⟨root, found, Node.written_of_parse? found, fun map => ⟨names_nodup_of_parse parsed map, ?_⟩,
    ?_, ?_⟩
  · intro name
    have related := lists map name
    generalize root.list? map name = items? at related ⊢
    generalize (map.inGrammar grammar).lookup name = texts? at related ⊢
    cases related with
    | none => exact .none
    | some each => exact .some each.length_eq
  · intro literal read contributes integer
    obtain ⟨told, chars, written, held⟩ := spelled literal read contributes
    refine ⟨written.eq_integerPart integer ▸ held, ?_,
      NumberLiteral.significantDigits_le_of_readsBack written integer⟩
    rw [← NumberLiteral.text?_eq_some_iff written integer, told, Option.some_inj]
  · intro literal other read first second integer integer' distinct
    obtain ⟨told, chars, written, -⟩ := spelled literal read first
    obtain ⟨told', chars', written', -⟩ := spelled other read second
    exact NumberLiteral.eq_of_text?_eq written integer written' integer' distinct told told'

/-- The least word, a number with one significant digit and one that is not read as it is written. -/
theorem json_integers_read_back_iff_id :
    let text := "\x7b\"context\":\x7b\"expressions\":\x7b\"Go\":[\"go\"]\x7d,\"slots\":" ++
      "\x7b\"Id\":[-9223372036854775808,100000000000000000000,9223372036854775808]\x7d\x7d\x7d"
    let grammar : Grammar :=
      ⟨[("Id", ["-9223372036854775808", "100000000000000000000", "9223372036854776000"])],
        [("Go", ["go"])]⟩
    let least : NumberLiteral := ⟨true, "9223372036854775808".toList, none, none⟩
    let round : NumberLiteral := ⟨false, "100000000000000000000".toList, none, none⟩
    let past : NumberLiteral := ⟨false, "9223372036854775808".toList, none, none⟩
    parse text .json = .ok grammar ∧ Text.fitsWord least.value = true ∧
    ¬ Text.fitsWord round.value = true ∧ round.ReadsBack ∧ ¬ past.ReadsBack ∧
    ∃ root, Node.parse? text = some root ∧
      root.list? .slots "Id" = some [.number least, .number round, .number past] ∧
      root.Corresponds grammar ∧ round.integerPart <:+: text.toList ∧
      Number.significantDigits round.whole ≤ 17 ∧
      "9223372036854776000" ≠ String.ofList past.integerPart ∧
      ∀ other, root.Contributes grammar (.number other) "-9223372036854775808" →
        other.IsInteger → least = other := by
  intro text grammar least round past
  have parsed : parse text .json = .ok grammar := by decide +kernel
  have fits : Text.fitsWord least.value = true := by decide +kernel
  have beyond : ¬ Text.fitsWord round.value = true := by decide +kernel
  have kept : round.ReadsBack := by decide +kernel
  have changed : ¬ past.ReadsBack := by decide +kernel
  have items : ((Node.parse? text).bind (Node.list? .slots "Id")).bind Node.literals? =
      some [least, round, past] := by
    decide +kernel
  obtain ⟨root, found, -, corresponds, reads, distinct⟩ := json_integers_read_back_iff parsed
  have listed : root.list? .slots "Id" = some [.number least, .number round, .number past] := by
    rw [found, Option.bind_some] at items
    obtain ⟨nodes, same, literals⟩ := Option.bind_eq_some_iff.mp items
    rw [same, Node.eq_map_of_literals? literals]
    rfl
  obtain ⟨held, -, few⟩ := reads round "100000000000000000000"
    ⟨.slots, "Id", _, _, 1, listed, rfl, rfl, rfl⟩ ⟨rfl, rfl⟩
  obtain ⟨-, iff, -⟩ := reads past "9223372036854776000"
    ⟨.slots, "Id", _, _, 2, listed, rfl, rfl, rfl⟩ ⟨rfl, rfl⟩
  refine ⟨parsed, fits, beyond, kept, changed, root, found, listed, corresponds, held,
    (few kept).resolve_left beyond, mt iff.mp changed, ?_⟩
  intro other contributes integer
  exact distinct least other "-9223372036854775808"
    ⟨.slots, "Id", _, _, 0, listed, rfl, rfl, rfl⟩ contributes ⟨rfl, rfl⟩ integer (.inl fits)

/-- Two integers of a document that become one, which is neither. -/
theorem json_integers_not_read_back :
    let text := "\x7b\"context\":\x7b\"expressions\":\x7b\"Go\":[\"go\"]\x7d,\"slots\":" ++
      "\x7b\"Id\":[9223372036854775808,9223372036854775809]\x7d\x7d\x7d"
    parse text .json = .ok
      ⟨[("Id", ["9223372036854776000", "9223372036854776000"])], [("Go", ["go"])]⟩ := by
  decide +kernel

end Grammar

end VoiceGrammar
