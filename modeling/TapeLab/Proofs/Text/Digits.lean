import Mathlib.Tactic.Ring
import TapeLab.Proofs.Text.Lines
import TapeLab.Text.Numeral

/-!
# Decimal digits

The digits in which a number is written are those in which it is read: each of them has its
value, and together they name the number (`ofDigitValues_toDigits`).  Digits by name make up a
number if all of them have a value and there are not too many (`natural?_eq_some_iff`).
-/

namespace TapeLab.Text

/-- The value of one of the ten plain digits. -/
def plainValue (c : Char) : Nat :=
  c.toNat - '0'.toNat

/-- The code points of the plain digits. -/
theorem toNat_of_isDigit {c : Char} (digit : c.isDigit = true) : 48 ≤ c.toNat ∧ c.toNat ≤ 57 := by
  simp only [Char.isDigit, Bool.and_eq_true, decide_eq_true_eq] at digit
  exact ⟨UInt32.le_iff_toNat_le.mp digit.1, UInt32.le_iff_toNat_le.mp digit.2⟩

/-- No digit is blank. -/
theorem isBlank_of_isDigit {c : Char} (digit : c.isDigit = true) : isBlank c = false := by
  obtain ⟨least, most⟩ := toNat_of_isDigit digit
  simp only [isBlank, Bool.or_eq_false_iff, Bool.and_eq_false_iff, decide_eq_false_iff_not,
    beq_eq_false_iff_ne]
  omega

/-- No line ends in a number. -/
theorem unbroken_toString (number : Nat) : Unbroken (toString number).toList := by
  rw [Nat.toString_eq_ofList_toDigits, String.toList_ofList]
  exact unbroken_of_visible fun c member =>
    isBlank_of_isDigit (Nat.isDigit_of_mem_toDigits (by omega) (by omega) member)

/-- A plain digit has its value. -/
theorem decimalValue?_of_isDigit {c : Char} (digit : c.isDigit = true) :
    decimalValue? c = some (plainValue c) := by
  obtain ⟨least, most⟩ := toNat_of_isDigit digit
  have begins : decimalZeros = 0x30 :: decimalZeros.tail := rfl
  have here : c.toNat < 0x30 + 10 := by omega
  have found : decimalZeros.find? (fun base => base ≤ c.toNat && c.toNat < base + 10) =
      some 0x30 := by
    rw [begins]
    exact List.find?_cons_of_pos (by simp [least, here])
  rw [decimalValue?, found]
  rfl

/-- Digits are added to a number that has been read so far. -/
theorem foldl_digits (digits : List Nat) (start : Nat) :
    digits.foldl (fun number digit => 10 * number + digit) start =
      start * 10 ^ digits.length + ofDigitValues digits := by
  induction digits generalizing start with
  | nil => simp [ofDigitValues]
  | cons digit rest inductionHypothesis =>
      have whole : ofDigitValues (digit :: rest) =
          (10 * 0 + digit) * 10 ^ rest.length + ofDigitValues rest := inductionHypothesis _
      rw [List.foldl_cons, inductionHypothesis, whole, List.length_cons, Nat.pow_succ]
      ring

/-- Digits after others weigh less. -/
theorem ofDigitValues_append (first second : List Nat) :
    ofDigitValues (first ++ second) =
      ofDigitValues first * 10 ^ second.length + ofDigitValues second := by
  rw [ofDigitValues, List.foldl_append, foldl_digits]
  rfl

/-- Zeros alone are nothing. -/
theorem ofDigitValues_zeros (count : Nat) : ofDigitValues (List.replicate count 0) = 0 := by
  induction count with
  | zero => rfl
  | succ count inductionHypothesis =>
      rw [List.replicate_succ, ← List.singleton_append, ofDigitValues_append, inductionHypothesis]
      simp [ofDigitValues]

/-- A number is named by the digits in which it is written. -/
theorem ofDigitValues_toDigits (number : Nat) :
    ofDigitValues ((Nat.toDigits 10 number).map plainValue) = number := by
  have digit : ∀ value : Fin 10, plainValue value.val.digitChar = value.val := by decide
  induction number using Nat.strongRecOn with
  | ind number inductionHypothesis =>
      rcases Nat.lt_or_ge number 10 with small | large
      · rw [Nat.toDigits_of_lt_base small]
        simpa [ofDigitValues] using digit ⟨number, small⟩
      · have last := digit ⟨number % 10, Nat.mod_lt _ (by omega)⟩
        rw [Nat.toDigits_of_base_le (by omega) large, List.map_append, ofDigitValues_append,
          inductionHypothesis (number / 10) (by omega)]
        simp only [List.map_cons, List.map_nil, List.length_cons, List.length_nil, ofDigitValues,
          List.foldl_cons, List.foldl_nil, last]
        omega

/-- No zero begins the digits of a positive number. -/
theorem head?_toDigits {number : Nat} (positive : 0 < number) :
    (Nat.toDigits 10 number).head? ≠ some '0' := by
  have digit : ∀ value : Fin 10, 0 < value.val → value.val.digitChar ≠ '0' := by decide
  induction number using Nat.strongRecOn with
  | ind number inductionHypothesis =>
      rcases Nat.lt_or_ge number 10 with small | large
      · rw [Nat.toDigits_of_lt_base small]
        simpa using digit ⟨number, small⟩ positive
      · have later := inductionHypothesis (number / 10) (by omega) (by omega)
        rwa [Nat.toDigits_of_base_le (by omega) large,
          List.head?_append, Option.or_of_isSome (List.isSome_head?.mpr Nat.toDigits_ne_nil)]

/-! ### Digits by name -/

section Named

variable {text : List Char}

/-- No digit by name is an underscore. -/
theorem beq_underscore {c : Char} (named : isDigitLike c = true) : (c == '_') = false := by
  rw [beq_eq_false_iff_ne]
  rintro rfl
  exact absurd named (by decide)

/-- Among digits by name there are no underscores, so their values are read one by one. -/
theorem digitRun?_eq_some_iff (named : ∀ c ∈ text, isDigitLike c = true) {values : List Nat} :
    digitRun? true text = some values ↔ text.map decimalValue? = values.map some := by
  induction text generalizing values with
  | nil =>
      simp only [digitRun?, if_true, Option.some.injEq, List.map_nil]
      rw [eq_comm, eq_comm (a := []), List.map_eq_nil_iff]
  | cons c rest inductionHypothesis =>
      obtain ⟨isDigit, others⟩ := List.forall_mem_cons.mp named
      rw [digitRun?, beq_underscore isDigit, Bool.and_false, if_neg Bool.false_ne_true, List.map_cons]
      cases first : decimalValue? c with
      | none => cases values <;> simp
      | some value =>
          cases values with
          | nil => cases later : digitRun? true rest <;> simp
          | cons head values =>
              rw [List.map_cons, List.cons.injEq, ← inductionHypothesis others]
              cases later : digitRun? true rest <;> simp

/-- A text begins with a digit whether or not one stood before it. -/
theorem digitRun?_false (nonempty : text ≠ []) (named : ∀ c ∈ text, isDigitLike c = true) :
    digitRun? false text = digitRun? true text := by
  cases text with
  | nil => exact absurd rfl nonempty
  | cons c rest =>
      rw [digitRun?, digitRun?, beq_underscore (named c List.mem_cons_self), Bool.and_false,
        Bool.and_false]

/-- Digits by name make up the number that their values name, unless one of them has no value or
there are too many. -/
theorem natural?_eq_some_iff (nonempty : text ≠ []) (named : ∀ c ∈ text, isDigitLike c = true)
    {number : Nat} : natural? text = some number ↔
      (∃ values, text.map decimalValue? = values.map some ∧ ofDigitValues values = number) ∧
        text.length ≤ maxNumeralDigits := by
  rw [natural?, digitRun?_false nonempty named]
  have long {values : List Nat} (same : text.map decimalValue? = values.map some) :
      text.length = values.length := by
    simpa using congrArg List.length same
  cases run : digitRun? true text with
  | none =>
      constructor
      · rintro ⟨⟩
      · rintro ⟨⟨values, same, -⟩, -⟩
        rw [(digitRun?_eq_some_iff named).mpr same] at run
        cases run
  | some values =>
      have same := (digitRun?_eq_some_iff named).mp run
      have only {others : List Nat} (alike : text.map decimalValue? = others.map some) :
          others = values := by
        rw [(digitRun?_eq_some_iff named).mpr alike] at run
        exact Option.some.inj run
      simp only [Option.bind_eq_bind, Option.bind_some, ← long same]
      constructor
      · intro found
        split at found
        · next few => exact ⟨⟨values, same, Option.some.inj found⟩, few⟩
        · cases found
      · rintro ⟨⟨others, alike, names⟩, few⟩
        rw [if_pos few, ← names, only alike]
        rfl

/-- So they make up none exactly if one of them has no value or there are too many. -/
theorem natural?_eq_none_iff (nonempty : text ≠ [])
    (named : ∀ c ∈ text, isDigitLike c = true) : natural? text = none ↔
      (∃ c ∈ text, decimalValue? c = none) ∨ maxNumeralDigits < text.length := by
  rw [Option.eq_none_iff_forall_ne_some]
  constructor
  · intro nothing
    by_contra both
    rw [not_or, not_exists, Nat.not_lt] at both
    obtain ⟨valued, few⟩ := both
    have values : text.map decimalValue? =
        (text.map fun c => (decimalValue? c).getD 0).map some := by
      rw [List.map_map]
      refine List.map_congr_left fun c member => ?_
      cases found : decimalValue? c with
      | none => exact absurd ⟨member, found⟩ (valued c)
      | some value => simp [found]
    exact nothing _ ((natural?_eq_some_iff nonempty named).mpr ⟨⟨_, values, rfl⟩, few⟩)
  · rintro without number found
    obtain ⟨⟨values, same, -⟩, few⟩ := (natural?_eq_some_iff nonempty named).mp found
    rcases without with ⟨c, member, valueless⟩ | many
    · have listed : none ∈ values.map some := by
        rw [← same, ← valueless]
        exact List.mem_map_of_mem member
      simp at listed
    · exact absurd few (Nat.not_le.mpr many)

end Named

end TapeLab.Text
