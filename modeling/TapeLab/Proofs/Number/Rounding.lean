import Mathlib.Algebra.Order.Field.Power
import Mathlib.Data.Rat.Cast.Order
import Mathlib.Tactic.FieldSimp
import Mathlib.Tactic.Linarith
import Mathlib.Tactic.Positivity
import Mathlib.Tactic.Ring
import TapeLab.Number.Binary64

/-!
# Rounding to binary64

What rounding a ratio gives depends on its value alone (`Binary64.ofRatio_congr`), and is a
number of the format itself for every ratio that is close enough to one
(`Binary64.ofRatio_of_near`).

Both rest on one description of the exponent: a ratio is rounded where its value
`FillsAt`, and it fills a significand at one exponent only.
-/

namespace TapeLab.Number.Binary64

variable {numerator denominator significand : Nat} {exponent : Int} {value : ℚ}

/-- Powers of two as they are computed and as they are reasoned about. -/
theorem twoTo_cast (exponent : Nat) : (twoTo exponent : ℚ) = 2 ^ exponent := by
  simp [twoTo]

/-- Whole powers of two are positive. -/
theorem twoTo_pos (exponent : Nat) : 0 < twoTo exponent :=
  Nat.pow_pos (by omega)

/-! ### The nearest whole number -/

/-- Scaling both parts of a ratio does not change what it is rounded to. -/
theorem roundHalfEven_mul {factor : Nat} (positive : 0 < factor) :
    roundHalfEven (factor * numerator) (factor * denominator) =
      roundHalfEven numerator denominator := by
  have quotient : factor * numerator / (factor * denominator) = numerator / denominator :=
    Nat.mul_div_mul_left numerator denominator positive
  have remainder : factor * numerator % (factor * denominator) =
      factor * (numerator % denominator) := Nat.mul_mod_mul_left factor numerator denominator
  have twice : 2 * (factor * (numerator % denominator)) =
      factor * (2 * (numerator % denominator)) := Nat.mul_left_comm 2 factor _
  simp only [roundHalfEven, quotient, remainder, twice, Nat.mul_lt_mul_left positive]

/-- Ratios of one value are rounded alike. -/
theorem roundHalfEven_congr {other divisor : Nat} (positive : 0 < denominator)
    (divides : 0 < divisor) (same : numerator * divisor = other * denominator) :
    roundHalfEven numerator denominator = roundHalfEven other divisor := by
  calc roundHalfEven numerator denominator
      = roundHalfEven (divisor * numerator) (divisor * denominator) :=
        (roundHalfEven_mul divides).symm
    _ = roundHalfEven (denominator * other) (denominator * divisor) := by
        rw [Nat.mul_comm divisor numerator, same, Nat.mul_comm other,
          Nat.mul_comm divisor denominator]
    _ = roundHalfEven other divisor := roundHalfEven_mul positive

/-- Rounding moves a ratio by a half at most. -/
theorem roundHalfEven_bounds (positive : 0 < denominator) :
    2 * numerator ≤ (2 * roundHalfEven numerator denominator + 1) * denominator ∧
      2 * roundHalfEven numerator denominator * denominator ≤ 2 * numerator + denominator := by
  have whole := Nat.div_add_mod numerator denominator
  have less := Nat.mod_lt numerator positive
  simp only [roundHalfEven]
  generalize numerator / denominator = quotient at *
  generalize numerator % denominator = remainder at *
  split
  · constructor <;> nlinarith
  · split
    · constructor <;> nlinarith
    · have half : 2 * remainder = denominator := by omega
      rcases Nat.mod_two_eq_zero_or_one quotient with even | odd
      · rw [even]
        constructor <;> nlinarith
      · rw [odd]
        constructor <;> nlinarith

/-- Rounding moves a value by a half at most. -/
theorem abs_sub_roundHalfEven_le (positive : 0 < denominator) :
    |(numerator / denominator : ℚ) - roundHalfEven numerator denominator| ≤ 1 / 2 := by
  obtain ⟨above, below⟩ := @roundHalfEven_bounds numerator denominator positive
  have above : (2 * numerator : ℚ) ≤
      (2 * roundHalfEven numerator denominator + 1) * denominator := by exact_mod_cast above
  have below : (2 * roundHalfEven numerator denominator * denominator : ℚ) ≤
      2 * numerator + denominator := by exact_mod_cast below
  have positive : (0 : ℚ) < denominator := by exact_mod_cast positive
  have least : (roundHalfEven numerator denominator - 1 / 2 : ℚ) ≤ numerator / denominator := by
    rw [le_div_iff₀ positive]
    linarith
  have most : (numerator / denominator : ℚ) ≤ roundHalfEven numerator denominator + 1 / 2 := by
    rw [div_le_iff₀ positive]
    linarith
  rw [abs_le]
  constructor <;> linarith

/-- A value less than a half from a whole number is rounded to it. -/
theorem roundHalfEven_of_near (positive : 0 < denominator)
    (near : |(numerator / denominator : ℚ) - significand| < 1 / 2) :
    roundHalfEven numerator denominator = significand := by
  have moved := abs_le.mp (@abs_sub_roundHalfEven_le numerator denominator positive)
  obtain ⟨less, more⟩ := abs_lt.mp near
  have least : (roundHalfEven numerator denominator : ℚ) < significand + 1 := by linarith
  have most : (significand : ℚ) < roundHalfEven numerator denominator + 1 := by linarith
  have least : roundHalfEven numerator denominator < significand + 1 := by exact_mod_cast least
  have most : significand < roundHalfEven numerator denominator + 1 := by exact_mod_cast most
  omega

/-! ### The exponent of a value -/

/-- A ratio divided by a power of two is a ratio again. -/
theorem scaledDown_pos (positive : 0 < denominator) :
    0 < (scaledDown numerator denominator exponent).2 := by
  rw [scaledDown]
  split
  · exact Nat.mul_pos positive (twoTo_pos _)
  · exact positive

/-- What a ratio is worth after it was divided by a power of two. -/
theorem scaledDown_div :
    ((scaledDown numerator denominator exponent).1 /
      (scaledDown numerator denominator exponent).2 : ℚ) =
        numerator / denominator / 2 ^ exponent := by
  rw [scaledDown]
  split
  case isTrue nonnegative =>
    obtain ⟨power, rfl⟩ := Int.eq_ofNat_of_zero_le nonnegative
    simp [twoTo_cast, div_div]
  case isFalse negative =>
    obtain ⟨power, rfl⟩ : ∃ power : Nat, exponent = -power :=
      ⟨exponent.natAbs, by omega⟩
    simp [twoTo_cast, zpow_neg, mul_div_right_comm]

/-- Ratios of one value are worth the same after they were divided by a power of two. -/
theorem scaledDown_congr {other divisor : Nat} (same : numerator * divisor = other * denominator) :
    (scaledDown numerator denominator exponent).1 * (scaledDown other divisor exponent).2 =
      (scaledDown other divisor exponent).1 * (scaledDown numerator denominator exponent).2 := by
  simp only [scaledDown]
  split
  · rw [← Nat.mul_assoc, ← Nat.mul_assoc, same]
  · rw [Nat.mul_right_comm, Nat.mul_right_comm other, same]

/-- The units of `2 ^ exponent` that a ratio is rounded to. -/
def roundedUnits (numerator denominator : Nat) (exponent : Int) : Nat :=
  roundHalfEven (scaledDown numerator denominator exponent).1
    (scaledDown numerator denominator exponent).2

/-- Counted in units of `2 ^ exponent`, rounding moves a value by a half at most. -/
theorem abs_sub_roundedUnits_le (positive : 0 < denominator) :
    |(numerator / denominator : ℚ) / 2 ^ exponent -
      roundedUnits numerator denominator exponent| ≤ 1 / 2 := by
  rw [← scaledDown_div]
  exact abs_sub_roundHalfEven_le (scaledDown_pos positive)

/-- A value less than a half from so many units is rounded to them. -/
theorem roundedUnits_of_near (positive : 0 < denominator)
    (near : |(numerator / denominator : ℚ) / 2 ^ exponent - significand| < 1 / 2) :
    roundedUnits numerator denominator exponent = significand := by
  rw [← scaledDown_div] at near
  exact roundHalfEven_of_near (scaledDown_pos positive) near

/-- Ratios of one value are rounded to the same units. -/
theorem roundedUnits_congr {other divisor : Nat} (positive : 0 < denominator)
    (divides : 0 < divisor) (same : numerator * divisor = other * denominator) :
    roundedUnits numerator denominator exponent = roundedUnits other divisor exponent :=
  roundHalfEven_congr (scaledDown_pos positive) (scaledDown_pos divides) (scaledDown_congr same)

/-- The exponent at which a positive value is rounded: there it has 53 bits at most, and just
as many unless the exponent is the least. -/
structure FillsAt (value : ℚ) (exponent : Int) : Prop where
  least : minExponent ≤ exponent
  below : value < 2 ^ (exponent + 53)
  above : minExponent < exponent → 2 ^ (exponent + 52) ≤ value

/-- A value fills a significand at one exponent at most. -/
theorem FillsAt.unique {first second : Int} (here : FillsAt value first)
    (there : FillsAt value second) : first = second := by
  have apart : ∀ {low high : Int}, FillsAt value low → FillsAt value high → ¬ low < high := by
    intro low high lower higher less
    have between : (2 : ℚ) ^ (low + 53) ≤ 2 ^ (high + 52) :=
      zpow_le_zpow_right₀ (by norm_num) (by omega)
    have least := lower.least
    have filled := higher.above (by omega)
    exact absurd lower.below (not_lt.mpr (between.trans filled))
  have := apart here there
  have := apart there here
  omega

/-- A value counted in units of `2 ^ exponent`, against a power of two. -/
theorem div_lt_iff (power : Nat) :
    value / 2 ^ exponent < 2 ^ power ↔ value < 2 ^ (exponent + power) := by
  have unit : (0 : ℚ) < 2 ^ exponent := by positivity
  rw [div_lt_iff₀ unit, zpow_add₀ two_ne_zero, zpow_natCast, mul_comm]

/-- A value fills a significand if it does so counted in units of the exponent. -/
theorem fillsAt_iff : FillsAt value exponent ↔ minExponent ≤ exponent ∧
    value / 2 ^ exponent < 2 ^ 53 ∧ (minExponent < exponent → 2 ^ 52 ≤ value / 2 ^ exponent) := by
  have below := @div_lt_iff exponent value 53
  have above := (@div_lt_iff exponent value 52).not
  rw [not_lt, not_lt] at above
  rw [below, above]
  exact ⟨fun fills => ⟨fills.least, fills.below, fills.above⟩,
    fun ⟨least, below, above⟩ => ⟨least, below, above⟩⟩

/-- Whether a ratio counted in units of `2 ^ exponent` has fewer bits, as it is computed. -/
theorem scaledDown_lt_iff (positive : 0 < denominator) (power : Nat) :
    (scaledDown numerator denominator exponent).1 / (scaledDown numerator denominator exponent).2 <
      twoTo power ↔ (numerator / denominator : ℚ) < 2 ^ (exponent + power) := by
  have divisor : (0 : ℚ) < (scaledDown numerator denominator exponent).2 := by
    exact_mod_cast scaledDown_pos positive
  rw [Nat.div_lt_iff_lt_mul (scaledDown_pos positive), ← div_lt_iff, ← scaledDown_div,
    div_lt_iff₀ divisor, ← twoTo_cast]
  exact_mod_cast Iff.rfl

/-- The bits of the parts of a ratio bound its value. -/
theorem bounds_of_log2 (some : 0 < numerator) (positive : 0 < denominator) :
    (2 : ℚ) ^ ((numerator.log2 : Int) - denominator.log2 - 1) < numerator / denominator ∧
      (numerator / denominator : ℚ) < 2 ^ ((numerator.log2 : Int) - denominator.log2 + 1) := by
  have whole : ∀ {number : Nat}, 0 < number →
      (2 : ℚ) ^ (number.log2 : Int) ≤ number ∧ (number : ℚ) < 2 ^ ((number.log2 : Int) + 1) := by
    intro number positive
    have least := Nat.log2_self_le (Nat.pos_iff_ne_zero.mp positive)
    have most := @Nat.lt_log2_self number
    constructor
    · exact_mod_cast least
    · exact_mod_cast most
  obtain ⟨leastAbove, mostAbove⟩ := whole some
  obtain ⟨leastBelow, mostBelow⟩ := whole positive
  have positive : (0 : ℚ) < denominator := by exact_mod_cast positive
  constructor
  · rw [lt_div_iff₀ positive]
    calc (2 : ℚ) ^ ((numerator.log2 : Int) - denominator.log2 - 1) * denominator
        < 2 ^ ((numerator.log2 : Int) - denominator.log2 - 1) *
            2 ^ ((denominator.log2 : Int) + 1) := by gcongr
      _ = 2 ^ (numerator.log2 : Int) := by
          rw [← zpow_add₀ two_ne_zero]
          congr 1
          omega
      _ ≤ numerator := leastAbove
  · rw [div_lt_iff₀ positive]
    calc (numerator : ℚ) < 2 ^ ((numerator.log2 : Int) + 1) := mostAbove
      _ = 2 ^ ((numerator.log2 : Int) - denominator.log2 + 1) *
            2 ^ (denominator.log2 : Int) := by
          rw [← zpow_add₀ two_ne_zero]
          congr 1
          omega
      _ ≤ 2 ^ ((numerator.log2 : Int) - denominator.log2 + 1) * denominator := by gcongr

/-- A positive ratio fills a significand at the exponent that is chosen for it. -/
theorem fillsAt_exponentFor (some : 0 < numerator) (positive : 0 < denominator) :
    FillsAt (numerator / denominator) (exponentFor numerator denominator) := by
  obtain ⟨least, most⟩ := bounds_of_log2 some positive
  simp only [exponentFor]
  generalize guessed : (numerator.log2 : Int) - denominator.log2 - 52 = wished
  have guess := max_def minExponent wished
  have below : (numerator / denominator : ℚ) < 2 ^ (max minExponent wished + 53) :=
    most.trans_le (zpow_le_zpow_right₀ (by norm_num) (by omega))
  generalize chosen : max minExponent wished = exponent at *
  have short : _ < twoTo (precision - 1) ↔ _ :=
    @scaledDown_lt_iff numerator denominator exponent positive 52
  split
  case isTrue halved =>
    simp only [Bool.and_eq_true, decide_eq_true_eq, short] at halved
    refine ⟨by omega, ?_, fun more => ?_⟩
    · exact halved.2.trans_le (zpow_le_zpow_right₀ (by norm_num) (by omega))
    · exact (zpow_le_zpow_right₀ (by norm_num) (by omega)).trans least.le
  case isFalse kept =>
    simp only [Bool.and_eq_true, decide_eq_true_eq, short, not_and, not_lt] at kept
    refine ⟨by omega, below, fun more => kept more⟩

/-- The exponent that is chosen for a ratio is the one at which it fills a significand. -/
theorem exponentFor_eq (some : 0 < numerator) (positive : 0 < denominator)
    (fills : FillsAt (numerator / denominator) exponent) :
    exponentFor numerator denominator = exponent :=
  (fillsAt_exponentFor some positive).unique fills

/-! ### The nearest number -/

/-- Ratios of one value are rounded alike. -/
theorem ofRatio_congr {negative : Bool} {other divisor : Nat} (some : 0 < numerator)
    (positive : 0 < denominator) (divides : 0 < divisor)
    (same : numerator * divisor = other * denominator) :
    ofRatio negative numerator denominator = ofRatio negative other divisor := by
  have more : 0 < other := by
    have product := Nat.mul_pos some divides
    rw [same] at product
    exact Nat.pos_of_mul_pos_right product
  have values : (numerator / denominator : ℚ) = other / divisor := by
    rw [div_eq_div_iff (by exact_mod_cast positive.ne') (by exact_mod_cast divides.ne')]
    exact_mod_cast same
  have exponents : exponentFor numerator denominator = exponentFor other divisor :=
    exponentFor_eq some positive (values ▸ fillsAt_exponentFor more divides)
  have rounded : roundedUnits numerator denominator (exponentFor other divisor) = _ :=
    roundedUnits_congr positive divides same
  simp only [roundedUnits] at rounded
  simp only [ofRatio, exponents, rounded]

/-- A significand and an exponent of the format: 53 bits at most, and just as many unless the
exponent is the least. -/
structure FitsAt (significand : Nat) (exponent : Int) : Prop where
  short : significand < 2 ^ 53
  least : minExponent ≤ exponent
  most : exponent ≤ maxExponent
  full : minExponent < exponent → 2 ^ 52 ≤ significand

/-- A number of the format. -/
def Fits : Binary64 → Prop
  | .finite _ significand exponent => FitsAt significand exponent
  | _ => True

section OfRatio

variable {negative : Bool} (some : 0 < numerator) (positive : 0 < denominator)
  (fills : FillsAt (numerator / denominator) exponent)

include positive fills in
/-- A value that fills a significand is rounded to 53 bits or to the least number of 54 bits. -/
theorem FillsAt.rounded :
    roundedUnits numerator denominator exponent ≤ 2 ^ 53 ∧
      (minExponent < exponent → 2 ^ 52 ≤ roundedUnits numerator denominator exponent) := by
  obtain ⟨-, below, above⟩ := fillsAt_iff.mp fills
  have moved := @abs_sub_roundedUnits_le numerator denominator exponent positive
  generalize roundedUnits numerator denominator exponent = found at *
  rw [abs_le] at moved
  refine ⟨?_, fun more => ?_⟩
  · have most : (found : ℚ) < 2 ^ 53 + 1 := by linarith
    have most : found < 2 ^ 53 + 1 := by exact_mod_cast most
    omega
  · have least : (2 ^ 52 : ℚ) < found + 1 := by linarith [above more]
    have least : 2 ^ 52 < found + 1 := by exact_mod_cast least
    omega

include some positive fills in
/-- A significand of 53 bits is kept. -/
theorem ofRatio_of_short (nearest : roundedUnits numerator denominator exponent = significand)
    (short : significand < 2 ^ 53) :
    ofRatio negative numerator denominator =
      if maxExponent < exponent then infinity negative
      else .finite negative significand exponent := by
  have stays : (significand == twoTo precision) = false := beq_eq_false_iff_ne.mpr short.ne
  rw [roundedUnits] at nearest
  simp [ofRatio, exponentFor_eq some positive fills, nearest, stays]

include some positive fills in
/-- A significand of 54 bits is carried into the exponent. -/
theorem ofRatio_of_long (nearest : roundedUnits numerator denominator exponent = 2 ^ 53) :
    ofRatio negative numerator denominator =
      if maxExponent < exponent + 1 then infinity negative
      else .finite negative (2 ^ 52) (exponent + 1) := by
  have carries : (2 ^ 53 == twoTo precision) = true := rfl
  have halved : twoTo (precision - 1) = 2 ^ 52 := rfl
  rw [roundedUnits] at nearest
  simp only [ofRatio, exponentFor_eq some positive fills, nearest, carries, halved, if_true, gt_iff_lt]

end OfRatio

/-- A ratio that differs from a number of the format by less than the number's `2 ^ 54`-th part
is rounded to that number. -/
theorem ofRatio_of_near (negative : Bool) (fits : FitsAt significand exponent)
    (some : 0 < numerator) (positive : 0 < denominator)
    (near : |(numerator / denominator : ℚ) - significand * 2 ^ exponent| <
      significand * 2 ^ exponent / 2 ^ 54) :
    ofRatio negative numerator denominator = .finite negative significand exponent := by
  have unit : (0 : ℚ) < 2 ^ exponent := by positivity
  -- Everything is counted in units of the number's own exponent.
  obtain ⟨scaled, counted⟩ : ∃ scaled : ℚ, (numerator / denominator : ℚ) = scaled * 2 ^ exponent :=
    ⟨numerator / denominator / 2 ^ exponent, (div_mul_cancel₀ _ unit.ne').symm⟩
  have inUnits : (numerator / denominator : ℚ) / 2 ^ exponent = scaled := by
    rw [counted, mul_div_cancel_right₀ _ unit.ne']
  have close : |scaled - significand| < significand / 2 ^ 54 := by
    rw [counted, ← sub_mul, abs_mul, abs_of_pos unit, mul_div_right_comm] at near
    exact lt_of_mul_lt_mul_right near unit.le
  obtain ⟨less, more⟩ := abs_lt.mp close
  have short : (significand : ℚ) + 1 ≤ 2 ^ 53 := by exact_mod_cast fits.short
  have bounded := fits.most
  by_cases falls : minExponent < exponent ∧ scaled < 2 ^ 52
  · -- Just below a power of two the ratio is rounded in half the units, and carried.
    obtain ⟨greater, falls⟩ := falls
    have full : (2 ^ 52 : ℚ) ≤ significand := by exact_mod_cast fits.full greater
    have least : significand = 2 ^ 52 := by
      have most : (significand : ℚ) < 2 ^ 52 + 1 := by linarith
      have most : significand < 2 ^ 52 + 1 := by exact_mod_cast most
      have := fits.full greater
      omega
    have inHalves : (numerator / denominator : ℚ) / 2 ^ (exponent - 1) = 2 * scaled := by
      rw [← inUnits, zpow_sub_one₀ two_ne_zero]
      field_simp
    have fills : FillsAt (numerator / denominator) (exponent - 1) := by
      rw [fillsAt_iff, inHalves]
      exact ⟨by omega, by linarith, fun _ => by linarith⟩
    have nearest : roundedUnits numerator denominator (exponent - 1) = 2 ^ 53 := by
      refine roundedUnits_of_near positive ?_
      rw [inHalves, abs_lt]
      subst least
      push_cast at less more ⊢
      constructor <;> linarith
    rw [ofRatio_of_long some positive fills nearest, sub_add_cancel, if_neg (by omega), least]
  · have fills : FillsAt (numerator / denominator) exponent := by
      rw [fillsAt_iff, inUnits]
      exact ⟨fits.least, by linarith, fun greater => not_lt.mp fun less => falls ⟨greater, less⟩⟩
    have nearest : roundedUnits numerator denominator exponent = significand := by
      refine roundedUnits_of_near positive ?_
      rw [inUnits, abs_lt]
      constructor <;> linarith
    rw [ofRatio_of_short some positive fills nearest fits.short, if_neg (by omega)]

end TapeLab.Number.Binary64
