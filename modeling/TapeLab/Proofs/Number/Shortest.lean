import Mathlib.Data.List.TakeWhile
import Mathlib.Data.Nat.Cast.Order.Field
import Mathlib.Tactic.NormNum
import TapeLab.Number.Shortest
import TapeLab.Proofs.Number.Rounding
import TapeLab.Proofs.Text.Digits

/-!
# Shortest decimals read back

What a decimal is read as depends on its value alone (`Binary64.ofDecimal_congr`), and it is
read as the number that its value is close to (`Binary64.ofDecimal_of_near`).  Of the two
neighbours that a number has on the grid of seventeen digits one is close enough, so the search
for the shortest decimal always ends with one that reads back (`ofDecimal_shortest`).
-/

namespace TapeLab.Number

open Text

variable {numerator denominator digits significand : Nat} {exponent : Int} {negative : Bool}

/-- Powers of ten as they are computed and as they are reasoned about. -/
theorem tenTo_cast (exponent : Nat) : (tenTo exponent : ℚ) = 10 ^ exponent := by
  simp [tenTo]

/-- Whole powers of ten are positive. -/
theorem tenTo_pos (exponent : Nat) : 0 < tenTo exponent :=
  Nat.pow_pos (by omega)

/-- A value has its leading digit before a place: there are so many places in its whole part. -/
structure LeadsAt (value : ℚ) (places : Int) : Prop where
  least : (10 : ℚ) ^ (places - 1) ≤ value
  most : value < 10 ^ places

/-- A value has its leading digit at one place only. -/
theorem LeadsAt.unique {value : ℚ} {first second : Int} (here : LeadsAt value first)
    (there : LeadsAt value second) : first = second := by
  have apart : ∀ {low high : Int}, LeadsAt value low → LeadsAt value high → ¬ low < high := by
    intro low high lower higher less
    have between : (10 : ℚ) ^ low ≤ 10 ^ (high - 1) :=
      zpow_le_zpow_right₀ (by norm_num) (by omega)
    exact absurd lower.most (not_lt.mpr (between.trans higher.least))
  have := apart here there
  have := apart there here
  omega

/-- A value that is counted in units of a power of ten leads as many places higher. -/
theorem LeadsAt.scaled {value : ℚ} {places : Int} (leads : LeadsAt value places)
    (exponent : Int) : LeadsAt (value * 10 ^ exponent) (exponent + places) := by
  have unit : (0 : ℚ) < 10 ^ exponent := by positivity
  obtain ⟨least, most⟩ := leads
  constructor
  · rw [add_sub_assoc, zpow_add₀ (by norm_num), mul_comm]
    exact mul_le_mul_of_nonneg_right least unit.le
  · rw [zpow_add₀ (by norm_num), mul_comm]
    exact mul_lt_mul_of_pos_left most unit

/-- A positive whole number has as many places as digits. -/
theorem leadsAt_length (some : 0 < digits) :
    LeadsAt digits (Nat.toDigits 10 digits).length := by
  have positive : 0 < (Nat.toDigits 10 digits).length := Nat.length_toDigits_pos
  obtain ⟨less, counted⟩ : ∃ less, (Nat.toDigits 10 digits).length = less + 1 :=
    ⟨_, (Nat.succ_pred_eq_of_pos positive).symm⟩
  have most : digits < 10 ^ (less + 1) :=
    (Nat.length_toDigits_le_iff (by omega) (by omega)).mp counted.le
  have least : 10 ^ less ≤ digits := by
    rcases Nat.eq_zero_or_pos less with rfl | more
    · exact some
    · exact not_lt.mp fun short => by
        have := (Nat.length_toDigits_le_iff (by omega) more).mpr short
        omega
  rw [counted]
  constructor
  · rw [Nat.cast_succ, add_sub_cancel_right, zpow_natCast]
    exact_mod_cast least
  · rw [zpow_natCast]
    exact_mod_cast most

/-! ### Reading a decimal -/

namespace Binary64

/-- A decimal as a ratio of whole numbers. -/
def decimalRatio (digits : Nat) (exponent : Int) : Nat × Nat :=
  if 0 ≤ exponent then (digits * tenTo exponent.toNat, 1) else (digits, tenTo (-exponent).toNat)

theorem decimalRatio_pos (some : 0 < digits) :
    0 < (decimalRatio digits exponent).1 ∧ 0 < (decimalRatio digits exponent).2 := by
  simp only [decimalRatio]
  split
  · exact ⟨Nat.mul_pos some (tenTo_pos _), Nat.one_pos⟩
  · exact ⟨some, tenTo_pos _⟩

theorem decimalRatio_div :
    ((decimalRatio digits exponent).1 / (decimalRatio digits exponent).2 : ℚ) =
      digits * 10 ^ exponent := by
  rw [decimalRatio]
  split
  case isTrue nonnegative =>
    obtain ⟨power, rfl⟩ := Int.eq_ofNat_of_zero_le nonnegative
    simp [tenTo_cast]
  case isFalse below =>
    obtain ⟨power, rfl⟩ : ∃ power : Nat, exponent = -power := ⟨exponent.natAbs, by omega⟩
    simp [tenTo_cast, zpow_neg, div_eq_mul_inv]

/-- A decimal with some digits is read as its ratio is rounded, unless its leading digit is out
of all bounds. -/
theorem ofDecimal_eq (some : 0 < digits) :
    ofDecimal negative digits exponent =
      if exponent + (Nat.toDigits 10 digits).length > decimalBound then infinity negative
      else if exponent + (Nat.toDigits 10 digits).length < -decimalBound then zero negative
      else ofRatio negative (decimalRatio digits exponent).1 (decimalRatio digits exponent).2 := by
  have visible : (digits == 0) = false := beq_eq_false_iff_ne.mpr some.ne'
  simp only [ofDecimal, decimalRatio, visible, Bool.false_eq_true, if_false]
  by_cases nonnegative : 0 ≤ exponent <;> simp [nonnegative]

/-- Decimals of one value are read alike. -/
theorem ofDecimal_congr {other : Nat} {power : Int} (some : 0 < digits) (someOther : 0 < other)
    (same : (digits * 10 ^ exponent : ℚ) = other * 10 ^ power) :
    ofDecimal negative digits exponent = ofDecimal negative other power := by
  have places : exponent + (Nat.toDigits 10 digits).length =
      power + (Nat.toDigits 10 other).length := by
    have first := (leadsAt_length some).scaled exponent
    rw [same] at first
    exact first.unique ((leadsAt_length someOther).scaled power)
  obtain ⟨positive, divides⟩ := @decimalRatio_pos digits exponent some
  obtain ⟨positiveOther, dividesOther⟩ := @decimalRatio_pos other power someOther
  have values := same
  rw [← decimalRatio_div, ← decimalRatio_div,
    div_eq_div_iff (by exact_mod_cast divides.ne') (by exact_mod_cast dividesOther.ne')] at values
  rw [ofDecimal_eq some, ofDecimal_eq someOther, places,
    ofRatio_congr positive divides dividesOther (by exact_mod_cast values)]

/-- A positive number of the format lies between the least and the greatest of them. -/
theorem FitsAt.bounds (fits : FitsAt significand exponent) (positive : 0 < significand) :
    (1 / 2 ^ 1074 : ℚ) ≤ significand * 2 ^ exponent ∧
      (significand * 2 ^ exponent : ℚ) < 2 ^ 1024 := by
  have unit : (0 : ℚ) < 2 ^ exponent := by positivity
  constructor
  · have one : (1 : ℚ) ≤ significand := by exact_mod_cast positive
    calc (1 / 2 ^ 1074 : ℚ) = 2 ^ minExponent := by
          rw [minExponent, zpow_neg, zpow_ofNat, one_div]
      _ ≤ 2 ^ exponent := zpow_le_zpow_right₀ (by norm_num) fits.least
      _ ≤ significand * 2 ^ exponent := le_mul_of_one_le_left unit.le one
  · have short : (significand : ℚ) < 2 ^ 53 := by exact_mod_cast fits.short
    calc (significand * 2 ^ exponent : ℚ) < 2 ^ 53 * 2 ^ exponent :=
          mul_lt_mul_of_pos_right short unit
      _ ≤ 2 ^ 53 * 2 ^ maxExponent := by
          gcongr
          · norm_num
          · exact fits.most
      _ = 2 ^ 1024 := by rw [maxExponent, zpow_ofNat, ← pow_add]

/-- A decimal that differs from a number of the format by less than the number's `2 ^ 54`-th part
is read as that number. -/
theorem ofDecimal_of_near (fits : FitsAt significand exponent) (positive : 0 < significand)
    {power : Int} (some : 0 < digits)
    (near : |(digits * 10 ^ power : ℚ) - significand * 2 ^ exponent| <
      significand * 2 ^ exponent / 2 ^ 54) :
    ofDecimal negative digits power = .finite negative significand exponent := by
  obtain ⟨least, most⟩ := (leadsAt_length some).scaled power
  obtain ⟨lowest, highest⟩ := fits.bounds positive
  -- The decimal is between a half and twice the number, well within the bounds.
  have within : (significand * 2 ^ exponent : ℚ) / 2 < digits * 10 ^ power ∧
      (digits * 10 ^ power : ℚ) < 2 * (significand * 2 ^ exponent) := by
    have unit : (0 : ℚ) < significand * 2 ^ exponent := by positivity
    obtain ⟨above, below⟩ := abs_lt.mp near
    constructor <;> linarith
  have notLarge : ¬ power + (Nat.toDigits 10 digits).length > decimalBound := by
    intro large
    rw [decimalBound] at large
    have far : (10 : ℚ) ^ 400 ≤ 10 ^ (power + (Nat.toDigits 10 digits).length - 1) := by
      rw [← zpow_ofNat]
      exact zpow_le_zpow_right₀ (by norm_num) (by omega)
    have bound : (2 * 2 ^ 1024 : ℚ) ≤ 10 ^ 400 := by
      exact_mod_cast (by decide +kernel : 2 * 2 ^ 1024 ≤ 10 ^ 400)
    have near : (2 * (significand * 2 ^ exponent) : ℚ) < 2 * 2 ^ 1024 :=
      mul_lt_mul_of_pos_left highest (by norm_num)
    exact lt_irrefl _ (((far.trans least).trans_lt (within.2.trans near)).trans_le bound)
  have notSmall : ¬ power + (Nat.toDigits 10 digits).length < -decimalBound := by
    intro small
    rw [decimalBound] at small
    have far : (10 : ℚ) ^ (power + (Nat.toDigits 10 digits).length) ≤ 1 / 10 ^ 400 := by
      rw [← zpow_ofNat, one_div, ← zpow_neg]
      exact zpow_le_zpow_right₀ (by norm_num) (by omega)
    have bound : (1 / 10 ^ 400 : ℚ) ≤ 1 / 2 ^ 1074 / 2 := by
      rw [div_div]
      refine one_div_le_one_div_of_le (by positivity) ?_
      exact_mod_cast (by decide +kernel : 2 ^ 1074 * 2 ≤ 10 ^ 400)
    have near : (1 / 2 ^ 1074 / 2 : ℚ) ≤ significand * 2 ^ exponent / 2 :=
      div_le_div_of_nonneg_right lowest (by norm_num)
    exact lt_irrefl _ (((within.1.trans most).trans_le (far.trans bound)).trans_le near)
  obtain ⟨numerators, denominators⟩ := @decimalRatio_pos digits power some
  rw [ofDecimal_eq some, if_neg notLarge, if_neg notSmall]
  refine ofRatio_of_near negative fits numerators denominators ?_
  rw [decimalRatio_div]
  exact near

/-- The sign of a ratio is the sign of what it is rounded to. -/
theorem ofRatio_eq_finite_iff :
    ofRatio negative numerator denominator = .finite negative significand exponent ↔
      ofRatio false numerator denominator = .finite false significand exponent := by
  simp only [ofRatio]
  generalize roundHalfEven _ _ = nearest
  split_ifs <;> simp

/-- The sign of a decimal is the sign of what it is read as. -/
theorem ofDecimal_eq_finite_iff {power : Int} :
    ofDecimal negative digits power = .finite negative significand exponent ↔
      ofDecimal false digits power = .finite false significand exponent := by
  simp only [ofDecimal]
  split_ifs
  · simp [zero]
  · simp
  · simp [zero]
  · exact ofRatio_eq_finite_iff
  · exact ofRatio_eq_finite_iff

end Binary64

/-! ### Searching for a decimal -/

/-- A ratio divided by a power of ten is a ratio again. -/
theorem scaledByTen_pos (positive : 0 < denominator) :
    0 < (scaledByTen numerator denominator exponent).2 := by
  rw [scaledByTen]
  split
  · exact Nat.mul_pos positive (tenTo_pos _)
  · exact positive

/-- What a ratio is worth after it was divided by a power of ten. -/
theorem scaledByTen_div :
    ((scaledByTen numerator denominator exponent).1 /
      (scaledByTen numerator denominator exponent).2 : ℚ) =
        numerator / denominator / 10 ^ exponent := by
  rw [scaledByTen]
  split
  case isTrue nonnegative =>
    obtain ⟨power, rfl⟩ := Int.eq_ofNat_of_zero_le nonnegative
    simp [tenTo_cast, div_div]
  case isFalse below =>
    obtain ⟨power, rfl⟩ : ∃ power : Nat, exponent = -power := ⟨exponent.natAbs, by omega⟩
    simp [tenTo_cast, zpow_neg, mul_div_right_comm]

/-- A ratio is compared with a power of ten in whole numbers. -/
theorem reaches_tenTo_iff (positive : 0 < denominator) :
    (if 0 ≤ exponent then denominator * tenTo exponent.toNat ≤ numerator
      else denominator ≤ numerator * tenTo (-exponent).toNat) ↔
        (10 : ℚ) ^ exponent ≤ numerator / denominator := by
  have divisor : (0 : ℚ) < denominator := by exact_mod_cast positive
  rw [le_div_iff₀ divisor]
  split
  case isTrue nonnegative =>
    obtain ⟨power, rfl⟩ := Int.eq_ofNat_of_zero_le nonnegative
    rw [Int.toNat_natCast, zpow_natCast, ← tenTo_cast, mul_comm]
    exact_mod_cast Iff.rfl
  case isFalse below =>
    obtain ⟨power, rfl⟩ : ∃ power : Nat, exponent = -power := ⟨exponent.natAbs, by omega⟩
    rw [neg_neg, Int.toNat_natCast, zpow_neg, zpow_natCast, ← tenTo_cast,
      inv_mul_le_iff₀ (by exact_mod_cast tenTo_pos power), mul_comm]
    exact_mod_cast Iff.rfl

/-- The exponent that is found for a ratio is that of its leading digit. -/
theorem leadsAt_leadingExponent (some : 0 < numerator) (positive : 0 < denominator) :
    LeadsAt (numerator / denominator) (leadingExponent numerator denominator + 1) := by
  have divisor : (0 : ℚ) < denominator := by exact_mod_cast positive
  obtain ⟨leastAbove, mostAbove⟩ := leadsAt_length some
  obtain ⟨leastBelow, mostBelow⟩ := leadsAt_length positive
  simp only [leadingExponent, reaches_tenTo_iff positive]
  generalize ((Nat.toDigits 10 numerator).length : Int) = long at *
  generalize ((Nat.toDigits 10 denominator).length : Int) = short at *
  -- The numbers of digits leave two places open, and a comparison decides between them.
  have lowest : (10 : ℚ) ^ (long - short - 1) ≤ numerator / denominator := by
    rw [le_div_iff₀ divisor]
    calc (10 : ℚ) ^ (long - short - 1) * denominator ≤ 10 ^ (long - short - 1) * 10 ^ short := by
          gcongr
      _ = 10 ^ (long - 1) := by
          rw [← zpow_add₀ (by norm_num)]
          congr 1
          omega
      _ ≤ numerator := leastAbove
  have highest : (numerator / denominator : ℚ) < 10 ^ (long - short + 1) := by
    rw [div_lt_iff₀ divisor]
    calc (numerator : ℚ) < 10 ^ long := mostAbove
      _ = 10 ^ (long - short + 1) * 10 ^ (short - 1) := by
          rw [← zpow_add₀ (by norm_num)]
          congr 1
          omega
      _ ≤ 10 ^ (long - short + 1) * denominator := by gcongr
  split
  case isTrue there => exact ⟨by rwa [add_sub_cancel_right], highest⟩
  case isFalse beyond =>
    rw [sub_add_cancel]
    exact ⟨lowest, not_le.mp beyond⟩

section Search

variable {accepts : Decimal → Bool} {decimal : Decimal}

/-- What is chosen from a grid is accepted. -/
theorem accepts_of_gridChoice?
    (chosen : gridChoice? accepts numerator denominator exponent = some decimal) :
    accepts decimal = true := by
  simp only [gridChoice?] at chosen
  split at chosen
  · next accepted _ => exact Option.some.inj chosen ▸ accepted
  · next _ accepted => exact Option.some.inj chosen ▸ accepted
  · cases chosen
  · next accepted other =>
    rw [← Option.some.inj chosen]
    split
    · exact accepted
    · exact other

/-- Something is chosen from a grid on which the decimal below or the one above is accepted. -/
theorem isSome_gridChoice?
    (accepted : accepts ⟨(scaledByTen numerator denominator exponent).1 /
        (scaledByTen numerator denominator exponent).2, exponent⟩ = true ∨
      accepts ⟨(scaledByTen numerator denominator exponent).1 /
        (scaledByTen numerator denominator exponent).2 + 1, exponent⟩ = true) :
    (gridChoice? accepts numerator denominator exponent).isSome = true := by
  simp only [gridChoice?]
  split
  · rfl
  · rfl
  · next below above =>
    rw [below, above] at accepted
    simp at accepted
  · rfl

/-- The search finds an accepted decimal if something is chosen from the last grid. -/
theorem exists_shortestFrom {leading : Int} {count more : Nat}
    (last : (gridChoice? accepts numerator denominator
      (leading + 1 - (count + more : Nat))).isSome = true) :
    ∃ decimal, shortestFrom accepts numerator denominator leading count (more + 1) = some decimal ∧
      accepts decimal = true := by
  induction more generalizing count with
  | zero =>
      obtain ⟨decimal, chosen⟩ := Option.isSome_iff_exists.mp last
      refine ⟨decimal, ?_, accepts_of_gridChoice? chosen⟩
      rw [Nat.add_zero] at chosen
      rw [shortestFrom, chosen]
  | succ more inductionHypothesis =>
      rw [shortestFrom]
      cases chosen : gridChoice? accepts numerator denominator (leading + 1 - count) with
      | some decimal => exact ⟨decimal, rfl, accepts_of_gridChoice? chosen⟩
      | none =>
          refine inductionHypothesis ?_
          rwa [Nat.add_assoc, Nat.add_comm 1 more]

end Search

/-- Moving trailing zeros into the exponent changes no value. -/
theorem normalized_value {decimal : Decimal} (some : 0 < decimal.digits) :
    0 < decimal.normalized.digits ∧
      (decimal.normalized.digits * 10 ^ decimal.normalized.exponent : ℚ) =
        decimal.digits * 10 ^ decimal.exponent := by
  have visible : (decimal.digits == 0) = false := beq_eq_false_iff_ne.mpr some.ne'
  simp only [Decimal.normalized, visible, Bool.false_eq_true, if_false]
  generalize written : Nat.toDigits 10 decimal.digits = text
  generalize counted : (text.reverse.takeWhile (· == '0')).length = count
  -- The digits are others with so many zeros after them.
  have trailing : text.reverse.takeWhile (· == '0') = List.replicate count '0' := by
    rw [← counted]
    refine List.eq_replicate_of_mem fun c member => ?_
    have zero : (c == '0') = true := List.mem_takeWhile_imp (p := (· == '0')) member
    exact beq_iff_eq.mp zero
  have cut : text = (text.reverse.dropWhile (· == '0')).reverse ++ List.replicate count '0' := by
    conv_lhs => rw [← List.reverse_reverse text,
      ← List.takeWhile_append_dropWhile (p := (· == '0')) (l := text.reverse)]
    rw [List.reverse_append, trailing, List.reverse_replicate]
  obtain ⟨front, divided⟩ : ∃ front, decimal.digits = front * tenTo count := by
    refine ⟨ofDigitValues ((text.reverse.dropWhile (· == '0')).reverse.map plainValue), ?_⟩
    have zero : plainValue '0' = 0 := rfl
    have named : ofDigitValues (text.map plainValue) = decimal.digits := by
      rw [← written, ofDigitValues_toDigits]
    rw [← named]
    conv_lhs => rw [cut]
    rw [List.map_append, List.map_replicate, zero, ofDigitValues_append, ofDigitValues_zeros,
      List.length_replicate, Nat.add_zero]
    rfl
  rw [divided, Nat.mul_div_cancel _ (tenTo_pos count)]
  refine ⟨Nat.pos_of_mul_pos_right (divided ▸ some), ?_⟩
  rw [zpow_add₀ (by norm_num), zpow_natCast, Nat.cast_mul, tenTo_cast]
  ring

namespace Binary64

/-- A decimal with seventeen digits is read as a number that is no more than half a step of its
grid away. -/
theorem ofDecimal_of_close (fits : FitsAt significand exponent) (positive : 0 < significand)
    {power : Int} {scaled : ℚ} (counted : (significand * 2 ^ exponent : ℚ) = scaled * 10 ^ power)
    (large : 10 ^ 16 ≤ scaled) (some : 0 < digits) (close : |(digits : ℚ) - scaled| ≤ 1 / 2) :
    ofDecimal false digits power = .finite false significand exponent := by
  have unit : (0 : ℚ) < 10 ^ power := by positivity
  refine ofDecimal_of_near fits positive some ?_
  rw [counted, ← sub_mul, abs_mul, abs_of_pos unit, mul_div_right_comm]
  refine mul_lt_mul_of_pos_right (close.trans_lt ?_) unit
  rw [lt_div_iff₀ (by norm_num)]
  linarith

/-- Of the two neighbours of a number on the grid of seventeen digits one is read as it. -/
theorem reads_neighbour (fits : FitsAt significand exponent) (positive : 0 < significand)
    {power : Int} (divides : 0 < denominator)
    (value : (numerator / denominator : ℚ) = significand * 2 ^ exponent)
    (leads : LeadsAt (numerator / denominator) (power + 17)) :
    let below := (scaledByTen numerator denominator power).1 /
      (scaledByTen numerator denominator power).2
    ofDecimal false below power = .finite false significand exponent ∨
      ofDecimal false (below + 1) power = .finite false significand exponent := by
  intro below
  have unit : (0 : ℚ) < 10 ^ power := by positivity
  have divisor : 0 < (scaledByTen numerator denominator power).2 := scaledByTen_pos divides
  have divisorCast : (0 : ℚ) < (scaledByTen numerator denominator power).2 := by
    exact_mod_cast divisor
  -- Everything is counted in steps of the grid.
  obtain ⟨scaled, counted⟩ : ∃ scaled : ℚ,
      (significand * 2 ^ exponent : ℚ) = scaled * 10 ^ power :=
    ⟨_, (div_mul_cancel₀ _ unit.ne').symm⟩
  have inSteps : ((scaledByTen numerator denominator power).1 /
      (scaledByTen numerator denominator power).2 : ℚ) = scaled := by
    rw [scaledByTen_div, value, counted, mul_div_cancel_right₀ _ unit.ne']
  have large : (10 ^ 16 : ℚ) ≤ scaled := by
    have least := leads.least
    rw [value, counted, show power + 17 - 1 = 16 + power by omega, zpow_add₀ (by norm_num),
      zpow_ofNat] at least
    exact le_of_mul_le_mul_right least unit
  have floor : (below : ℚ) ≤ scaled ∧ scaled < below + 1 := by
    rw [← inSteps]
    constructor
    · exact Nat.cast_div_le
    · rw [div_lt_iff₀ divisorCast, mul_comm]
      exact_mod_cast Nat.lt_mul_div_succ _ divisor
  rcases le_total (scaled - below) (1 / 2) with near | far
  · left
    refine ofDecimal_of_close fits positive counted large ?_ ?_
    · by_contra nothing
      rw [Nat.eq_zero_of_not_pos nothing] at floor
      norm_num at floor
      linarith
    · rw [abs_le]
      constructor <;> linarith
  · right
    refine ofDecimal_of_close fits positive counted large (Nat.succ_pos below) ?_
    rw [abs_le]
    push_cast
    constructor <;> linarith

/-- A finite number without its sign, as a ratio of whole numbers. -/
theorem exactRatio_div :
    ((exactRatio significand exponent).1 / (exactRatio significand exponent).2 : ℚ) =
      significand * 2 ^ exponent := by
  rw [exactRatio]
  split
  case isTrue nonnegative =>
    obtain ⟨power, rfl⟩ := Int.eq_ofNat_of_zero_le nonnegative
    simp [twoTo_cast]
  case isFalse below =>
    obtain ⟨power, rfl⟩ : ∃ power : Nat, exponent = -power := ⟨exponent.natAbs, by omega⟩
    simp [twoTo_cast, zpow_neg, div_eq_mul_inv]

theorem exactRatio_pos (positive : 0 < significand) :
    0 < (exactRatio significand exponent).1 ∧ 0 < (exactRatio significand exponent).2 := by
  simp only [exactRatio]
  split
  · exact ⟨Nat.mul_pos positive (twoTo_pos _), Nat.one_pos⟩
  · exact ⟨positive, twoTo_pos _⟩

/-- The shortest decimal of a number of the format is read as the number, under either sign. -/
theorem ofDecimal_shortest (fits : FitsAt significand exponent) (positive : 0 < significand)
    (negative : Bool) :
    0 < (shortest significand exponent).digits ∧
      ofDecimal negative (shortest significand exponent).digits
        (shortest significand exponent).exponent = .finite negative significand exponent := by
  obtain ⟨some, divides⟩ := @exactRatio_pos significand exponent positive
  have leads := leadsAt_leadingExponent some divides
  simp only [shortest]
  generalize leadingExponent (exactRatio significand exponent).1
    (exactRatio significand exponent).2 = leading at leads ⊢
  generalize decided : (fun decimal : Decimal =>
    ofDecimal false decimal.digits decimal.exponent == .finite false significand exponent) =
      accepts
  have accepts_iff : ∀ decimal, accepts decimal = true ↔
      ofDecimal false decimal.digits decimal.exponent = .finite false significand exponent := by
    intro decimal
    rw [← decided]
    exact beq_iff_eq
  have last : (gridChoice? accepts (exactRatio significand exponent).1
      (exactRatio significand exponent).2 (leading + 1 - (1 + 16 : Nat))).isSome = true := by
    refine isSome_gridChoice? ?_
    simp only [accepts_iff]
    refine reads_neighbour fits positive divides exactRatio_div ?_
    rwa [Nat.cast_add, Nat.cast_one, Nat.cast_ofNat,
      show leading + 1 - (1 + 16) + 17 = leading + 1 by omega]
  obtain ⟨decimal, found, accepted⟩ := exists_shortestFrom last
  have read := (accepts_iff decimal).mp accepted
  have visible : 0 < decimal.digits := by
    by_contra nothing
    rw [Nat.eq_zero_of_not_pos nothing] at read
    cases read
    exact lt_irrefl _ positive
  obtain ⟨digits, value⟩ := normalized_value visible
  rw [maxSignificantDigits, found, Option.getD_some]
  refine ⟨digits, ?_⟩
  rw [ofDecimal_congr digits visible value]
  exact ofDecimal_eq_finite_iff.mpr read

end Binary64

end TapeLab.Number
