/-
# The shortest decimal of a number

Numbers and decimals are compared as rationals. What is computed over common denominators is
brought there once (`power_div`, `Rounding.contains_iff`), and rounding keeps the numbers regular
(`Binary64.regular_of_round?`).

A regular number lies between two neighbouring powers of ten (`Rounding.leadingExponent_spec`), so
that seventeen digits reach down to steps smaller than the interval around it, and a decimal is
always found (`Rounding.exists_candidate?`). The shortest decimal therefore rounds to the number
(`shortest_mem`), and a shortest text that is a whole number has at most seventeen digits before
the zeros at its end (`significantDigits_le_of_shortest`).
-/
import Mathlib.Algebra.Order.Field.Power
import Mathlib.Data.List.DropRight
import Mathlib.Data.Rat.Floor
import Mathlib.Tactic.FieldSimp
import Mathlib.Tactic.Linarith
import Mathlib.Tactic.Positivity
import VoiceGrammar.Number.Shortest

namespace VoiceGrammar.Number

set_option autoImplicit false

/-! ## Fractions -/

theorem power_snd_pos {base : Nat} (positive : 0 < base) (exponent : Int) :
    0 < (power base exponent).2 := by
  unfold power
  split
  · exact Nat.one_pos
  · exact Nat.pow_pos positive

theorem power_fst_pos {base : Nat} (positive : 0 < base) (exponent : Int) :
    0 < (power base exponent).1 := by
  unfold power
  split
  · exact Nat.pow_pos positive
  · exact Nat.one_pos

theorem power_div (base : Nat) (exponent : Int) :
    ((power base exponent).1 : ℚ) / (power base exponent).2 = (base : ℚ) ^ exponent := by
  unfold power
  split
  · rename_i whole
    obtain ⟨n, rfl⟩ := Int.eq_ofNat_of_zero_le whole
    simp
  · rename_i fraction
    obtain ⟨n, rfl⟩ : ∃ n : Nat, exponent = -(n : Int) := ⟨(-exponent).toNat, by omega⟩
    simp

namespace Binary64

def value (x : Binary64) : ℚ :=
  x.significand * 2 ^ x.exponent

theorem fraction_eq (x : Binary64) :
    x.fraction = (x.significand * (power 2 x.exponent).1, (power 2 x.exponent).2) := by
  unfold fraction power
  split
  · rfl
  · rw [Nat.mul_one]

theorem fraction_snd_pos (x : Binary64) : 0 < x.fraction.2 := by
  rw [fraction_eq]
  exact power_snd_pos (by decide) _

theorem fraction_div (x : Binary64) : (x.fraction.1 : ℚ) / x.fraction.2 = x.value := by
  rw [fraction_eq, Nat.cast_mul, mul_div_assoc, power_div]
  rfl

/-! ## Rounding -/

variable {numerator denominator : Nat}

/-- The logarithms of its parts enclose a fraction. -/
theorem log2_bracket (numeratorPos : numerator ≠ 0) (denominatorPos : denominator ≠ 0) :
    (2 : ℚ) ^ ((numerator.log2 : Int) - denominator.log2 - 1) < (numerator : ℚ) / denominator ∧
      (numerator : ℚ) / denominator < 2 ^ ((numerator.log2 : Int) - denominator.log2 + 1) := by
  have positive : (0 : ℚ) < denominator := by exact_mod_cast Nat.pos_of_ne_zero denominatorPos
  have least : (2 : ℚ) ^ numerator.log2 ≤ numerator := by
    exact_mod_cast Nat.log2_self_le numeratorPos
  have most : (numerator : ℚ) < 2 ^ (numerator.log2 + 1) := by exact_mod_cast Nat.lt_log2_self
  have least' : (2 : ℚ) ^ denominator.log2 ≤ denominator := by
    exact_mod_cast Nat.log2_self_le denominatorPos
  have most' : (denominator : ℚ) < 2 ^ (denominator.log2 + 1) := by
    exact_mod_cast Nat.lt_log2_self
  have lower : (2 : ℚ) ^ ((numerator.log2 : Int) - denominator.log2 - 1) =
      2 ^ numerator.log2 / 2 ^ (denominator.log2 + 1) := by
    rw [Int.sub_sub, zpow_sub₀ two_ne_zero]
    norm_cast
  have upper : (2 : ℚ) ^ ((numerator.log2 : Int) - denominator.log2 + 1) =
      2 ^ (numerator.log2 + 1) / 2 ^ denominator.log2 := by
    rw [sub_add_eq_add_sub, zpow_sub₀ two_ne_zero]
    norm_cast
  rw [lower, upper]
  constructor
  · exact div_lt_div₀' least most' (by positivity) (by positivity)
  · exact div_lt_div₀ most least' (by positivity) (by positivity)

theorem magnitude_spec (numeratorPos : numerator ≠ 0) (denominatorPos : denominator ≠ 0) :
    (2 : ℚ) ^ magnitude numerator denominator ≤ (numerator : ℚ) / denominator ∧
      (numerator : ℚ) / denominator < 2 ^ (magnitude numerator denominator + 1) := by
  obtain ⟨lower, upper⟩ := log2_bracket numeratorPos denominatorPos
  have positive : (0 : ℚ) < denominator := by exact_mod_cast Nat.pos_of_ne_zero denominatorPos
  unfold magnitude
  generalize (numerator.log2 : Int) - denominator.log2 = estimate at lower upper
  have reaches : (if estimate ≥ 0 then denominator * Nat.pow 2 estimate.toNat ≤ numerator
      else denominator ≤ numerator * Nat.pow 2 (-estimate).toNat) ↔
      (2 : ℚ) ^ estimate ≤ (numerator : ℚ) / denominator := by
    have bottom : (0 : ℚ) < (power 2 estimate).2 := by
      exact_mod_cast power_snd_pos (by decide) estimate
    have two : (2 : ℚ) = (2 : Nat) := rfl
    rw [two, ← power_div, div_le_div_iff₀ bottom positive]
    norm_cast
    unfold power
    split
    · rw [Nat.mul_one, Nat.mul_comm]
    · rw [Nat.one_mul]
  dsimp only
  by_cases reached : (2 : ℚ) ^ estimate ≤ (numerator : ℚ) / denominator
  · rw [if_pos (reaches.mpr reached)]
    exact ⟨reached, upper⟩
  · rw [if_neg (mt reaches.mp reached), Int.sub_add_cancel]
    exact ⟨lower.le, not_le.mp reached⟩

/-- What the format allows. -/
structure Regular (x : Binary64) : Prop where
  significand_lt : x.significand < 2 ^ precision
  minExponent_le : minExponent ≤ x.exponent
  exponent_le : x.exponent ≤ maxExponent

theorem regular_zero : zero.Regular := ⟨by decide, by decide, by decide⟩

theorem roundQuotient_bounds (numerator denominator : Nat) :
    numerator / denominator ≤ roundQuotient numerator denominator ∧
      roundQuotient numerator denominator ≤ numerator / denominator + 1 := by
  unfold roundQuotient
  dsimp only
  split <;> omega

/-- The significand is the rounded quotient of a fraction by a power of two. -/
theorem exists_roundQuotient (denominatorPos : 0 < denominator) (exponent : Int) :
    ∃ p q : Nat, 0 < q ∧ (p : ℚ) / q = (numerator : ℚ) / denominator / 2 ^ exponent ∧
      (if exponent ≥ 0 then roundQuotient numerator (denominator * Nat.pow 2 exponent.toNat)
        else roundQuotient (numerator * Nat.pow 2 (-exponent).toNat) denominator) =
        roundQuotient p q := by
  refine ⟨numerator * (power 2 exponent).2, denominator * (power 2 exponent).1, ?_, ?_, ?_⟩
  · exact Nat.mul_pos denominatorPos (power_fst_pos (by decide) exponent)
  · have two : (2 : ℚ) = (2 : Nat) := rfl
    rw [two, ← power_div, Nat.cast_mul, Nat.cast_mul, div_div_div_eq, mul_comm]
  · unfold power
    split
    · rw [Nat.mul_one]
    · rw [Nat.mul_one]

theorem round?_cases {x : Binary64} (numeratorPos : numerator ≠ 0)
    (denominatorPos : 0 < denominator) (rounded : round? numerator denominator = some x) :
    ∃ (exponent : Int) (p q : Nat),
      exponent = max (magnitude numerator denominator - 52) minExponent ∧ 0 < q ∧
      (p : ℚ) / q = (numerator : ℚ) / denominator / 2 ^ exponent ∧ x.exponent ≤ maxExponent ∧
      if roundQuotient p q = 2 ^ precision then x = ⟨2 ^ (precision - 1), exponent + 1⟩
      else x = ⟨roundQuotient p q, exponent⟩ := by
  unfold round? at rounded
  rw [if_neg (by simpa using numeratorPos)] at rounded
  have places : ((precision : Int) - 1) = 52 := rfl
  dsimp only at rounded
  rw [places] at rounded
  generalize max (magnitude numerator denominator - 52) minExponent = exponent at rounded
  obtain ⟨p, q, positive, quotient, same⟩ :=
    @exists_roundQuotient numerator denominator denominatorPos exponent
  rw [same] at rounded
  simp only [Nat.pow_eq] at rounded
  refine ⟨exponent, p, q, rfl, positive, quotient, ?_⟩
  by_cases carry : roundQuotient p q = 2 ^ precision
  · rw [if_pos carry]
    rw [if_pos (beq_iff_eq.mpr carry)] at rounded
    split at rounded
    · cases rounded
    · rename_i small
      cases rounded
      exact ⟨Int.not_lt.mp small, rfl⟩
  · rw [if_neg carry]
    rw [if_neg (mt beq_iff_eq.mp carry)] at rounded
    split at rounded
    · cases rounded
    · rename_i small
      cases rounded
      exact ⟨Int.not_lt.mp small, rfl⟩

theorem regular_of_round? {x : Binary64} (denominatorPos : 0 < denominator)
    (rounded : round? numerator denominator = some x) : x.Regular := by
  by_cases numeratorPos : numerator = 0
  · subst numeratorPos
    cases rounded
    exact regular_zero
  obtain ⟨exponent, p, q, chosen, positive, quotient, small, made⟩ :=
    round?_cases numeratorPos denominatorPos rounded
  obtain ⟨-, upper⟩ := magnitude_spec numeratorPos denominatorPos.ne'
  have below : p / q < 2 ^ precision := by
    rw [Nat.div_lt_iff_lt_mul positive]
    have within : (p : ℚ) / q < 2 ^ 53 := by
      rw [quotient, div_lt_iff₀ (by positivity), ← zpow_natCast, ← zpow_add₀ two_ne_zero]
      refine upper.trans_le (zpow_le_zpow_right₀ one_le_two ?_)
      omega
    rw [div_lt_iff₀ (by exact_mod_cast positive)] at within
    exact_mod_cast within
  have reached := (roundQuotient_bounds p q).2
  split at made
  · subst made
    exact ⟨Nat.pow_lt_pow_right (by decide) (by decide), by dsimp only; omega, small⟩
  · rename_i uncarried
    subst made
    exact ⟨by dsimp only; omega, by dsimp only; omega, small⟩

/-- Rounding does not fall below a power of two, and the significand is large there. -/
theorem large_of_round? {x : Binary64} (denominatorPos : 0 < denominator)
    (rounded : round? numerator denominator = some x) {k : Int} (normal : minExponent + 52 ≤ k)
    (large : (2 : ℚ) ^ k ≤ (numerator : ℚ) / denominator) :
    2 ^ (precision - 1) ≤ x.significand ∧ k - 52 ≤ x.exponent := by
  have numeratorPos : numerator ≠ 0 := by
    rintro rfl
    rw [Nat.cast_zero, zero_div] at large
    exact absurd large (not_le.mpr (by positivity))
  obtain ⟨exponent, p, q, chosen, positive, quotient, -, made⟩ :=
    round?_cases numeratorPos denominatorPos rounded
  obtain ⟨lower, upper⟩ := magnitude_spec numeratorPos denominatorPos.ne'
  have reached : k < magnitude numerator denominator + 1 :=
    (zpow_lt_zpow_iff_right₀ one_lt_two).mp (large.trans_lt upper)
  have above : 2 ^ (precision - 1) ≤ p / q := by
    rw [Nat.le_div_iff_mul_le positive]
    have within : (2 : ℚ) ^ 52 ≤ (p : ℚ) / q := by
      rw [quotient, le_div_iff₀ (by positivity), ← zpow_natCast, ← zpow_add₀ two_ne_zero]
      refine (zpow_le_zpow_right₀ one_le_two ?_).trans lower
      omega
    rw [le_div_iff₀ (by exact_mod_cast positive)] at within
    exact_mod_cast within
  have kept := (roundQuotient_bounds p q).1
  split at made
  · subst made
    exact ⟨le_rfl, by dsimp only; omega⟩
  · subst made
    exact ⟨above.trans kept, by dsimp only; omega⟩

theorem le_value_of_round? {x : Binary64} (denominatorPos : 0 < denominator)
    (rounded : round? numerator denominator = some x) {k : Int} (normal : minExponent + 52 ≤ k)
    (large : (2 : ℚ) ^ k ≤ (numerator : ℚ) / denominator) : (2 : ℚ) ^ k ≤ x.value := by
  obtain ⟨significand, exponent⟩ := large_of_round? denominatorPos rounded normal large
  calc (2 : ℚ) ^ k
    _ = 2 ^ 52 * 2 ^ (k - 52) := by
      rw [← zpow_natCast, ← zpow_add₀ two_ne_zero]
      congr 1
      omega
    _ ≤ x.significand * 2 ^ x.exponent := by
      apply mul_le_mul _ (zpow_le_zpow_right₀ one_le_two exponent) (by positivity) (by positivity)
      exact_mod_cast significand

theorem regular_of_mul? {x y product : Binary64} (multiplied : x.mul? y = some product) :
    product.Regular :=
  regular_of_round? (Nat.mul_pos x.fraction_snd_pos y.fraction_snd_pos) multiplied

theorem large_of_mul? {x y product : Binary64} (multiplied : x.mul? y = some product) {j k : Int}
    (first : (2 : ℚ) ^ j ≤ x.value) (second : (2 : ℚ) ^ k ≤ y.value)
    (normal : minExponent + 52 ≤ j + k) :
    2 ^ (precision - 1) ≤ product.significand ∧ j + k - 52 ≤ product.exponent := by
  apply large_of_round? (Nat.mul_pos x.fraction_snd_pos y.fraction_snd_pos) multiplied normal
  rw [Nat.cast_mul, Nat.cast_mul, ← div_mul_div_comm, fraction_div, fraction_div,
    zpow_add₀ two_ne_zero]
  exact mul_le_mul first second (by positivity) (le_trans (by positivity) first)

end Binary64

/-! ## The interval around a number -/

namespace Rounding

variable {r : Rounding} {scale : Int} {coefficient : Nat}

def value (r : Rounding) : ℚ :=
  r.center * 2 ^ r.exponent

/-- Whether a rational lies in the interval. -/
def Mem (r : Rounding) (y : ℚ) : Prop :=
  let low := (r.center - r.below : ℚ) * 2 ^ r.exponent
  let high := (r.center + r.above : ℚ) * 2 ^ r.exponent
  if r.closed then low ≤ y ∧ y ≤ high else low < y ∧ y < high

theorem denominator_pos (r : Rounding) (scale : Int) : 0 < (r.scaled scale).denominator :=
  Nat.mul_pos (power_snd_pos (by decide) _) (power_fst_pos (by decide) _)

theorem quarter_div (r : Rounding) (scale : Int) :
    ((r.scaled scale).quarter : ℚ) / (r.scaled scale).denominator = 2 ^ r.exponent / 10 ^ scale := by
  have two : (2 : ℚ) = (2 : Nat) := rfl
  have ten : (10 : ℚ) = (10 : Nat) := rfl
  rw [two, ten, ← power_div, ← power_div, div_div_div_eq]
  simp [scaled]

theorem center_eq (r : Rounding) (scale : Int) :
    (r.scaled scale).center = r.center * (r.scaled scale).quarter := by
  simp [scaled, Nat.mul_assoc]

/-- Comparing with a multiple of a power of ten, over the common denominator. -/
theorem scaled_le_iff (r : Rounding) (scale : Int) (quarters coefficient : Nat) :
    quarters * (r.scaled scale).quarter ≤ coefficient * (r.scaled scale).denominator ↔
      (quarters : ℚ) * 2 ^ r.exponent ≤ coefficient * 10 ^ scale := by
  have positive : (0 : ℚ) < (r.scaled scale).denominator := by
    exact_mod_cast r.denominator_pos scale
  have ten : (0 : ℚ) < 10 ^ scale := by positivity
  rw [← div_le_iff₀ ten, mul_div_assoc, ← quarter_div, ← mul_div_assoc, div_le_iff₀ positive]
  norm_cast

theorem le_scaled_iff (r : Rounding) (scale : Int) (quarters coefficient : Nat) :
    coefficient * (r.scaled scale).denominator ≤ quarters * (r.scaled scale).quarter ↔
      (coefficient : ℚ) * 10 ^ scale ≤ quarters * 2 ^ r.exponent := by
  have positive : (0 : ℚ) < (r.scaled scale).denominator := by
    exact_mod_cast r.denominator_pos scale
  have ten : (0 : ℚ) < 10 ^ scale := by positivity
  rw [← le_div_iff₀ ten, mul_div_assoc, ← quarter_div, ← mul_div_assoc, le_div_iff₀ positive]
  norm_cast

theorem contains_iff (inside : r.below ≤ r.center) :
    r.contains scale coefficient = true ↔ r.Mem (coefficient * 10 ^ scale) := by
  have low : (r.scaled scale).center - r.below * (r.scaled scale).quarter =
      (r.center - r.below) * (r.scaled scale).quarter := by rw [center_eq, Nat.sub_mul]
  have high : (r.scaled scale).center + r.above * (r.scaled scale).quarter =
      (r.center + r.above) * (r.scaled scale).quarter := by rw [center_eq, Nat.add_mul]
  unfold contains Mem
  dsimp only
  rw [low, high]
  split
  · rw [Bool.and_eq_true, decide_eq_true_iff, decide_eq_true_iff, scaled_le_iff, le_scaled_iff,
      Nat.cast_sub inside, Nat.cast_add]
  · rw [Bool.and_eq_true, decide_eq_true_iff, decide_eq_true_iff, ← not_le, ← not_le,
      scaled_le_iff, le_scaled_iff, not_le, not_le, Nat.cast_sub inside, Nat.cast_add]

theorem Mem.bounds {y : ℚ} (held : r.Mem y) :
    (r.center - r.below : ℚ) * 2 ^ r.exponent ≤ y ∧ y ≤ (r.center + r.above : ℚ) * 2 ^ r.exponent := by
  unfold Mem at held
  dsimp only at held
  split at held
  · exact held
  · exact ⟨held.1.le, held.2.le⟩

theorem mem_of_lt {y : ℚ} (low : (r.center - r.below : ℚ) * 2 ^ r.exponent < y)
    (high : y < (r.center + r.above : ℚ) * 2 ^ r.exponent) : r.Mem y := by
  unfold Mem
  dsimp only
  split
  · exact ⟨low.le, high.le⟩
  · exact ⟨low, high⟩

/-! ## The leading exponent -/

theorem reaches_iff (r : Rounding) (exponent : Int) :
    (r.scaled exponent).denominator ≤ (r.scaled exponent).center ↔ (10 : ℚ) ^ exponent ≤ r.value := by
  have compared := le_scaled_iff r exponent r.center 1
  rw [Nat.one_mul, ← center_eq, Nat.cast_one, one_mul] at compared
  exact compared

/-- The number has its leading digit there. -/
theorem leadingExponent_spec (large : (10 : ℚ) ^ (-330 : Int) ≤ r.value)
    (small : r.value < 10 ^ (310 : Int)) :
    (10 : ℚ) ^ (r.leadingExponent - 1) ≤ r.value ∧ r.value < 10 ^ r.leadingExponent := by
  unfold leadingExponent
  simp only [reaches_iff, decide_eq_true_eq]
  split
  · rename_i whole
    cases found : (List.range 310).find? fun (k : Nat) =>
        !decide ((10 : ℚ) ^ ((k : Int) + 1) ≤ r.value) with
    | none =>
        have reached := List.find?_eq_none.mp found 309 (by decide)
        rw [Bool.not_eq_true, Bool.not_eq_false', decide_eq_true_iff] at reached
        exact absurd small (not_lt.mpr reached)
    | some k =>
        obtain ⟨missed, -, earlier⟩ := List.find?_range_eq_some.mp found
        rw [Bool.not_eq_true', decide_eq_false_iff_not, not_le] at missed
        refine ⟨?_, missed⟩
        rw [Option.getD_some, Int.add_sub_cancel]
        cases k with
        | zero => exact whole
        | succ before => simpa using earlier before (Nat.lt_succ_self before)
  · rename_i fraction
    rw [not_le] at fraction
    split
    · rename_i zeros found
      obtain ⟨reached, -, earlier⟩ := List.find?_range_eq_some.mp found
      rw [decide_eq_true_iff] at reached
      refine ⟨reached, ?_⟩
      cases zeros with
      | zero => exact fraction
      | succ before =>
          have next : -((before + 1 : Nat) : Int) = -(before : Int) - 1 := by omega
          have missed := earlier before (Nat.lt_succ_self before)
          rw [next]
          simpa using missed
    · rename_i found
      have missed := List.find?_eq_none.mp found 329 (by decide)
      rw [decide_eq_true_iff] at missed
      exact absurd large missed

theorem value_around (x : Binary64) : (around x).value = x.value := by
  have quarters : (2 : ℚ) ^ (x.exponent - 2) = 2 ^ x.exponent / 4 := by
    rw [zpow_sub₀ two_ne_zero]
    norm_num
  simp only [value, around, Binary64.value, quarters, Nat.cast_mul, Nat.cast_ofNat]
  ring

theorem two_zpow_lt_ten_zpow {m n : Int} {a b k : Nat} (base : 2 ^ a < 10 ^ b) (positive : k ≠ 0)
    (small : m ≤ a * k) (large : (b * k : Int) ≤ n) : (2 : ℚ) ^ m < 10 ^ n := by
  calc (2 : ℚ) ^ m
    _ ≤ 2 ^ ((a : Int) * k) := zpow_le_zpow_right₀ one_le_two small
    _ = (2 ^ a) ^ k := by rw [zpow_mul, zpow_natCast, zpow_natCast]
    _ < (10 ^ b) ^ k := by exact_mod_cast Nat.pow_lt_pow_left base positive
    _ = 10 ^ ((b : Int) * k) := by rw [zpow_mul, zpow_natCast, zpow_natCast]
    _ ≤ 10 ^ n := zpow_le_zpow_right₀ (by norm_num) large

end Rounding

namespace Binary64.Regular

variable {x : Binary64}

theorem value_lt (regular : x.Regular) : x.value < 10 ^ (310 : Int) := by
  have significand : (x.significand : ℚ) < 2 ^ (53 : Int) := by
    exact_mod_cast regular.significand_lt
  calc x.value
    _ < 2 ^ (53 : Int) * 2 ^ x.exponent := mul_lt_mul_of_pos_right significand (by positivity)
    _ = 2 ^ (53 + x.exponent) := (zpow_add₀ two_ne_zero ..).symm
    _ < 10 ^ (310 : Int) := by
      have exponent := regular.exponent_le
      unfold maxExponent at exponent
      exact @Rounding.two_zpow_lt_ten_zpow _ _ 205 62 5 (by decide) (by decide) (by omega) (by decide)

theorem le_value (regular : x.Regular) (positive : x.significand ≠ 0) :
    10 ^ (-330 : Int) ≤ x.value := by
  have significand : (1 : ℚ) ≤ x.significand := by exact_mod_cast Nat.one_le_iff_ne_zero.mpr positive
  have exponent := regular.minExponent_le
  have tiny : (2 : ℚ) ^ (1074 : Int) < 10 ^ (330 : Int) :=
    @Rounding.two_zpow_lt_ten_zpow _ _ 33 10 33 (by decide) (by decide) (by decide) (by decide)
  calc (10 : ℚ) ^ (-330 : Int)
    _ = (10 ^ (330 : Int))⁻¹ := zpow_neg ..
    _ ≤ (2 ^ (1074 : Int))⁻¹ := by
      rw [inv_le_inv₀ (by positivity) (by positivity)]
      exact tiny.le
    _ = 2 ^ (-1074 : Int) := (zpow_neg ..).symm
    _ ≤ 2 ^ x.exponent := zpow_le_zpow_right₀ one_le_two exponent
    _ ≤ x.value := le_mul_of_one_le_left (by positivity) significand

end Binary64.Regular

/-! ## Candidates -/

namespace Rounding

variable {r : Rounding} {scale : Int}

/-- The multiple of a power of ten just below the center. -/
theorem lower_spec (r : Rounding) (scale : Int) :
    let lower := (r.scaled scale).center / (r.scaled scale).denominator
    (lower : ℚ) * 10 ^ scale ≤ r.value ∧ r.value < ((lower + 1 : Nat) : ℚ) * 10 ^ scale := by
  intro lower
  constructor
  · have below : lower * (r.scaled scale).denominator ≤ r.center * (r.scaled scale).quarter :=
      center_eq r scale ▸ Nat.div_mul_le_self ..
    exact (le_scaled_iff ..).mp below
  · have above : r.center * (r.scaled scale).quarter < (lower + 1) * (r.scaled scale).denominator :=
      center_eq r scale ▸ Nat.mul_comm .. ▸ Nat.lt_mul_div_succ _ (r.denominator_pos scale)
    rw [← not_le] at above ⊢
    exact mt (le_scaled_iff ..).mpr above

theorem candidate?_eq_some {found : Decimal} (candidate : r.candidate? scale = some found) :
    found.exponent = scale ∧ r.contains scale found.coefficient = true ∧
      found.coefficient ≤ (r.scaled scale).center / (r.scaled scale).denominator + 1 := by
  unfold candidate? at candidate
  dsimp only at candidate
  generalize (r.scaled scale).center / (r.scaled scale).denominator = lower at candidate ⊢
  split at candidate
  · rename_i first second
    split at candidate
    · cases candidate
      exact ⟨rfl, first, Nat.le_succ lower⟩
    · cases candidate
      exact ⟨rfl, second, le_rfl⟩
  · rename_i first _
    cases candidate
    exact ⟨rfl, first, Nat.le_succ lower⟩
  · rename_i second
    cases candidate
    exact ⟨rfl, second, le_rfl⟩
  · cases candidate

/-- Below a power of ten the coefficient has few digits, unless it is the next power itself. -/
theorem candidate?_coefficient_le {found : Decimal} {k : Nat} (below : r.value < 10 ^ (scale + k))
    (candidate : r.candidate? scale = some found) : found.coefficient ≤ 10 ^ k := by
  obtain ⟨-, -, next⟩ := candidate?_eq_some candidate
  have reached := (lower_spec r scale).1.trans_lt below
  rw [zpow_add₀ (by norm_num), mul_comm (10 ^ scale), zpow_natCast] at reached
  have lower := lt_of_mul_lt_mul_right reached (by positivity)
  exact next.trans (by exact_mod_cast lower)

theorem candidate?_eq_none (failed : r.candidate? scale = none) :
    let lower := (r.scaled scale).center / (r.scaled scale).denominator
    r.contains scale lower = false ∧ r.contains scale (lower + 1) = false := by
  intro lower
  unfold candidate? at failed
  dsimp only at failed
  split at failed
  · split at failed <;> cases failed
  · cases failed
  · cases failed
  · rename_i first second
    exact ⟨first, second⟩

/-- An interval that is wider than the step has one of the two multiples around the center in it. -/
theorem exists_candidate? (inside : r.below ≤ r.center) (below : 0 < r.below) (above : 0 < r.above)
    (wide : (10 : ℚ) ^ scale < (r.below + r.above : ℚ) * 2 ^ r.exponent) :
    ∃ found, r.candidate? scale = some found := by
  rw [← Option.ne_none_iff_exists']
  intro failed
  obtain ⟨first, second⟩ := candidate?_eq_none failed
  obtain ⟨low, high⟩ := lower_spec r scale
  generalize (r.scaled scale).center / (r.scaled scale).denominator = lower at first second low high
  rw [Bool.eq_false_iff, ne_eq, contains_iff inside] at first second
  have unit : (0 : ℚ) < 2 ^ r.exponent := by positivity
  have belowUnit : (0 : ℚ) < r.below * 2 ^ r.exponent := by positivity
  have aboveUnit : (0 : ℚ) < r.above * 2 ^ r.exponent := by positivity
  unfold value at low high
  rw [add_mul] at wide
  by_cases near : (r.center - r.below : ℚ) * 2 ^ r.exponent < lower * 10 ^ scale
  · refine first (mem_of_lt near ?_)
    rw [add_mul]
    linarith
  · rw [not_lt, sub_mul] at near
    rw [Nat.cast_add, Nat.cast_one, add_mul, one_mul] at second high
    refine second (mem_of_lt ?_ ?_)
    · rw [sub_mul]
      linarith
    · rw [add_mul]
      linarith

end Rounding

/-! ## The shortest decimal -/

namespace Decimal

def value (d : Decimal) : ℚ :=
  d.coefficient * 10 ^ d.exponent

theorem value_normalize (count : Nat) (d : Decimal) : (d.normalize count).value = d.value := by
  induction count generalizing d with
  | zero => rfl
  | succ count ih =>
      unfold normalize
      split
      · rename_i divisible
        rw [Bool.and_eq_true, beq_iff_eq] at divisible
        have whole : (d.coefficient : ℚ) = 10 * (d.coefficient / 10 : Nat) := by
          exact_mod_cast (Nat.mul_div_cancel' (Nat.dvd_of_mod_eq_zero divisible.1)).symm
        rw [ih, value, value, whole, zpow_add_one₀ (by norm_num)]
        ring
      · rfl

theorem coefficient_normalize_le (count : Nat) (d : Decimal) :
    (d.normalize count).coefficient ≤ d.coefficient := by
  induction count generalizing d with
  | zero => rfl
  | succ count ih =>
      unfold normalize
      split
      · exact (ih _).trans (Nat.div_le_self ..)
      · rfl

end Decimal

section Shortest

variable {x : Binary64}

theorem Rounding.below_around (x : Binary64) :
    (Rounding.around x).below = if x.significand = 2 ^ (Binary64.precision - 1) then 1 else 2 := by
  simp [around]

theorem Rounding.below_around_bounds (positive : x.significand ≠ 0) :
    0 < (Rounding.around x).below ∧ (Rounding.around x).below ≤ (Rounding.around x).center := by
  have center : (Rounding.around x).center = 4 * x.significand := rfl
  rw [below_around, center]
  split <;> omega

theorem Rounding.leadingExponent_around (regular : x.Regular) (positive : x.significand ≠ 0) :
    (10 : ℚ) ^ ((Rounding.around x).leadingExponent - 1) ≤ (Rounding.around x).value ∧
      (Rounding.around x).value < 10 ^ (Rounding.around x).leadingExponent := by
  apply leadingExponent_spec
  · rw [value_around]
    exact regular.le_value positive
  · rw [value_around]
    exact regular.value_lt

/-- The step of the seventeenth digit is smaller than the interval. -/
theorem Rounding.wide_around (regular : x.Regular) (positive : x.significand ≠ 0) :
    (10 : ℚ) ^ ((Rounding.around x).leadingExponent - 17) <
      ((Rounding.around x).below + (Rounding.around x).above : ℚ) *
        2 ^ (Rounding.around x).exponent := by
  obtain ⟨leads, -⟩ := leadingExponent_around regular positive
  generalize (around x).leadingExponent = leading at leads ⊢
  have split : (10 : ℚ) ^ (leading - 1) = 10 ^ (leading - 17) * 10 ^ 16 := by
    rw [← zpow_natCast, ← zpow_add₀ (by norm_num)]
    congr 1
    omega
  have center : (around x).value = 4 * (x.significand * 2 ^ (around x).exponent) := by
    rw [value, ← mul_assoc]
    congr 1
    exact Nat.cast_mul ..
  have above : ((around x).above : ℚ) = 2 := rfl
  have unit : (0 : ℚ) < 2 ^ (around x).exponent := by positivity
  have significand : (x.significand : ℚ) < 2 ^ 53 := by exact_mod_cast regular.significand_lt
  have scaled := mul_lt_mul_of_pos_right significand unit
  rw [split, center] at leads
  rw [above, below_around]
  by_cases power : x.significand = 2 ^ (Binary64.precision - 1)
  · have least : (x.significand : ℚ) = 2 ^ 52 := by exact_mod_cast power
    rw [least] at leads
    rw [if_pos power, Nat.cast_one]
    linarith
  · rw [if_neg power, Nat.cast_ofNat]
    linarith

/-- **Seventeen digits suffice.** -/
theorem shortest_eq (regular : x.Regular) (positive : x.significand ≠ 0) :
    ∃ found digits, digits < 17 ∧ (Rounding.around x).candidate?
      ((Rounding.around x).leadingExponent - ((digits : Nat) + 1)) = some found ∧
      shortest x = found.normalize 20 := by
  have last : ∃ found, (Rounding.around x).candidate?
      ((Rounding.around x).leadingExponent - ((16 : Nat) + 1)) = some found := by
    obtain ⟨below, inside⟩ := Rounding.below_around_bounds positive
    exact Rounding.exists_candidate? inside below Nat.two_pos
      (Rounding.wide_around regular positive)
  obtain ⟨final, last⟩ := last
  unfold shortest
  rw [if_neg (by simpa using positive)]
  dsimp only
  cases tried : (List.range 17).findSome? fun (digits : Nat) => (Rounding.around x).candidate?
      ((Rounding.around x).leadingExponent - (digits + 1)) with
  | none =>
      have failed := List.findSome?_eq_none_iff.mp tried 16 (by decide)
      cases last.symm.trans failed
  | some found =>
      obtain ⟨digits, member, candidate⟩ := List.exists_of_findSome?_eq_some tried
      exact ⟨found, digits, List.mem_range.mp member, candidate, rfl⟩

/-- **The shortest decimal rounds to the number.** -/
theorem shortest_mem (regular : x.Regular) (positive : x.significand ≠ 0) :
    (Rounding.around x).Mem (shortest x).value := by
  obtain ⟨found, digits, -, candidate, same⟩ := shortest_eq regular positive
  obtain ⟨exponent, contained, -⟩ := Rounding.candidate?_eq_some candidate
  rw [same, Decimal.value_normalize, Decimal.value, exponent]
  exact (Rounding.contains_iff (Rounding.below_around_bounds positive).2).mp contained

theorem coefficient_shortest_le (regular : x.Regular) : (shortest x).coefficient ≤ 10 ^ 17 := by
  by_cases positive : x.significand = 0
  · have zero : shortest x = ⟨0, 0⟩ := by simp [shortest, positive]
    rw [zero]
    decide
  · obtain ⟨found, digits, few, candidate, same⟩ := shortest_eq regular positive
    have below : (Rounding.around x).value <
        10 ^ ((Rounding.around x).leadingExponent - (digits + 1) + (digits + 1 : Nat)) := by
      rw [Nat.cast_add_one, Int.sub_add_cancel]
      exact (Rounding.leadingExponent_around regular positive).2
    calc (shortest x).coefficient
      _ ≤ found.coefficient := same ▸ Decimal.coefficient_normalize_le ..
      _ ≤ 10 ^ (digits + 1) := Rounding.candidate?_coefficient_le below candidate
      _ ≤ 10 ^ 17 := Nat.pow_le_pow_right (by decide) few

/-- The number of digits up to the last one that is not a zero. -/
def significantDigits (digits : List Char) : Nat :=
  (digits.rdropWhile (· == '0')).length

theorem significantDigits_append_zeros (digits : List Char) (zeros : Nat) :
    significantDigits (digits ++ List.replicate zeros '0') = significantDigits digits := by
  induction zeros with
  | zero => rw [List.replicate_zero, List.append_nil]
  | succ zeros ih =>
      rw [List.replicate_succ', ← List.append_assoc, significantDigits,
        List.rdropWhile_concat_pos _ _ _ (by decide)]
      exact ih

theorem toDigits_ten_pow (k : Nat) :
    Nat.toDigits 10 (10 ^ k) = ['1'] ++ List.replicate k '0' := by
  induction k with
  | zero => rfl
  | succ k ih =>
      have longer : Nat.toDigits 10 (10 ^ k) ++ Nat.toDigits 10 0 = Nat.toDigits 10 (10 * 10 ^ k + 0) :=
        Nat.toDigits_append_toDigits (by decide) (Nat.pow_pos (by decide)) (by decide)
      rw [Nat.pow_succ', ← Nat.add_zero (10 * 10 ^ k), ← longer, ih, List.replicate_succ',
        List.append_assoc]
      rfl

theorem significantDigits_toDigits_le {n digits : Nat} (positive : 0 < digits)
    (small : n ≤ 10 ^ digits) : significantDigits (Nat.toDigits 10 n) ≤ digits := by
  rcases small.lt_or_eq with below | rfl
  · calc significantDigits (Nat.toDigits 10 n)
      _ ≤ (Nat.toDigits 10 n).length := (List.rdropWhile_prefix _ _).length_le
      _ ≤ digits := (Nat.length_toDigits_le_iff (by decide) positive).mpr below
  · rw [toDigits_ten_pow, significantDigits_append_zeros]
    exact positive

/-- A decimal that is written with digits only is a whole number. -/
theorem Decimal.eq_of_text_eq {d : Decimal} {digits : List Char}
    (digital : ∀ c ∈ digits, Text.isDigit c = true) (shown : d.text = String.ofList digits) :
    0 ≤ d.exponent ∧
      digits = Nat.toDigits 10 d.coefficient ++ List.replicate d.exponent.toNat '0' := by
  unfold text at shown
  dsimp only at shown
  split at shown
  · rename_i whole
    exact ⟨whole, (String.ofList_injective shown).symm⟩
  · have point : '.' ∈ digits := by
      rw [← String.ofList_injective shown]
      simp
    exact absurd (digital '.' point) (by decide)

/-- **A whole number that is the shortest text of a number has few significant digits.** -/
theorem significantDigits_le_of_shortest (regular : x.Regular) {digits : List Char}
    (digital : ∀ c ∈ digits, Text.isDigit c = true)
    (shown : (shortest x).text = String.ofList digits) : significantDigits digits ≤ 17 := by
  rw [(Decimal.eq_of_text_eq digital shown).2, significantDigits_append_zeros]
  exact significantDigits_toDigits_le (by decide) (coefficient_shortest_le regular)

/-- From `2 ^ 63` on the shortest decimal is greater than that, although the number need not be. -/
theorem lt_value_shortest (regular : x.Regular) (normal : 2 ^ 52 ≤ x.significand)
    (large : 11 ≤ x.exponent) : (2 : ℚ) ^ 63 < (shortest x).value := by
  by_cases least : x = ⟨2 ^ 52, 11⟩
  · have found : shortest ⟨2 ^ 52, 11⟩ = ⟨9223372036854776, 3⟩ := by decide +kernel
    rw [least, found]
    norm_num [Decimal.value]
  · have positive : x.significand ≠ 0 := by omega
    refine lt_of_lt_of_le ?_ (shortest_mem regular positive).bounds.1
    have center : ((Rounding.around x).center : ℚ) = 4 * x.significand := Nat.cast_mul ..
    have exponent : (Rounding.around x).exponent = x.exponent - 2 := rfl
    have below : ((Rounding.around x).below : ℚ) ≤ 2 := by
      rw [Rounding.below_around]
      split <;> norm_num
    have significand : (2 : ℚ) ^ 52 ≤ x.significand := by exact_mod_cast normal
    rw [center, exponent]
    rcases large.lt_or_eq with higher | same
    · have unit : (2 : ℚ) ^ (10 : Int) ≤ 2 ^ (x.exponent - 2) :=
        zpow_le_zpow_right₀ one_le_two (by omega)
      calc (2 : ℚ) ^ 63
        _ < (2 ^ 54 - 2) * 2 ^ (10 : Int) := by norm_num
        _ ≤ (4 * x.significand - (Rounding.around x).below) * 2 ^ (x.exponent - 2) := by
          apply mul_le_mul _ unit (by positivity) _
          · linarith
          · linarith
    · have next : (2 : ℚ) ^ 52 + 1 ≤ x.significand := by
        have other : x.significand ≠ 2 ^ 52 := by
          intro power
          apply least
          rw [← power, same]
        exact_mod_cast Nat.lt_of_le_of_ne normal other.symm
      have unit : (2 : ℚ) ^ ((11 : Int) - 2) = 512 := by norm_num
      rw [← same, unit]
      linarith

end Shortest

end VoiceGrammar.Number
