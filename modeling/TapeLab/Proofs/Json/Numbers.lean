import TapeLab.Proofs.Json.RoundTrip
import TapeLab.Proofs.Number.Spelling

/-!
# Numbers read back

What is written for a whole number, or for a binary64 number, is read as that number.  So the
values that can be stored are known by their numbers alone (`Storable`), and all of them are
read back.
-/

namespace TapeLab.Json

open Number Text

/-- A value that can be stored: its whole numbers have not too many digits, its other numbers
are of the format, and none of its records has two fields of one name. -/
inductive Storable : Value → Prop where
  | null : Storable .null
  | bool (value : Bool) : Storable (.bool value)
  | integer {value : Int} (short : (Nat.toDigits 10 value.natAbs).length ≤ maxNumeralDigits) :
      Storable (.integer value)
  | float {value : Binary64} (fits : value.Fits) : Storable (.float value)
  | text (value : String) : Storable (.text value)
  | list {items : List Value} (each : ∀ item ∈ items, Storable item) : Storable (.list items)
  | record {fields : List (String × Value)} (distinct : (fields.map Prod.fst).Nodup)
      (each : ∀ field ∈ fields, Storable field.2) : Storable (.record fields)

/-! ### Where a number ends -/

/-- What may follow a value is no part of a number. -/
theorem Ends.notNumeral {rest : List Char} (ends : Ends rest) {c : Char} {after : List Char}
    (follows : rest = c :: after) :
    c.isDigit = false ∧ c ≠ '.' ∧ c ≠ 'e' ∧ c ≠ 'E' := by
  have mark : c ∈ [',', ']', '\x7d', ' ', '\t', '\n', '\r'] := by
    have shown := ends c (by rw [follows]; rfl)
    simp only [isJsonSpace, Bool.or_eq_true, beq_iff_eq] at shown
    simp only [List.mem_cons, List.not_mem_nil, or_false]
    tauto
  have all : [',', ']', '\x7d', ' ', '\t', '\n', '\r'].all (fun c =>
      !c.isDigit && c != '.' && c != 'e' && c != 'E') = true := by decide
  simpa [and_assoc] using List.all_eq_true.mp all c mark

/-- The digits of a number are those of its reader. -/
theorem isPlainDigit_eq (c : Char) : isPlainDigit c = c.isDigit := by
  simp only [isPlainDigit, Char.isDigit, Char.le_def]

/-- A text that no digit begins. -/
def NoDigit (text : List Char) : Prop :=
  ∀ c ∈ text.head?, c.isDigit = false

/-- Digits are taken as far as they go. -/
theorem takeWhile_digits {digits rest : List Char} (digit : ∀ c ∈ digits, c.isDigit = true)
    (other : NoDigit rest) :
    (digits ++ rest).takeWhile isPlainDigit = digits ∧
      (digits ++ rest).dropWhile isPlainDigit = rest := by
  have plain : ∀ c ∈ digits, isPlainDigit c = true := fun c member => by
    rw [isPlainDigit_eq, digit c member]
  rw [List.takeWhile_append_of_pos plain, List.dropWhile_append_of_pos plain]
  cases rest with
  | nil => simp
  | cons c after =>
      have stops : isPlainDigit c = false := by rw [isPlainDigit_eq, other c rfl]
      simp [stops]

section Parts

variable {rest : List Char} {fraction : List Char} {power : Option (Bool × List Char)}

theorem Ends.noDigit (ends : Ends rest) : NoDigit rest := by
  intro c begins
  cases rest with
  | nil => cases begins
  | cons d after =>
      obtain rfl : d = c := by simpa using begins
      exact (ends.notNumeral rfl).1

/-- An exponent is read up to its end. -/
theorem exponentPart_powerText (digits : ∀ found ∈ power, IsDigits found.2) (ends : Ends rest) :
    exponentPart (Spelling.powerText power ++ rest) = (Spelling.powerText power, rest) := by
  cases power with
  | none =>
      cases rest with
      | nil => rfl
      | cons c after =>
          obtain ⟨-, -, small, large⟩ := ends.notNumeral rfl
          simp [Spelling.powerText, exponentPart, small, large]
  | some found =>
      obtain ⟨negative, text⟩ := found
      have sound := digits _ rfl
      obtain ⟨taken, dropped⟩ := takeWhile_digits sound.digit ends.noDigit
      have some : text.isEmpty = false := List.isEmpty_eq_false_iff.mpr sound.some
      cases negative <;> simp [Spelling.powerText, exponentPart, taken, dropped, some]

/-- A point with its digits is read up to their end. -/
theorem fractionPart_fractionText (digits : ∀ c ∈ fraction, c.isDigit = true) (ends : Ends rest) :
    fractionPart (Spelling.fractionText fraction ++ (Spelling.powerText power ++ rest)) =
      (Spelling.fractionText fraction, Spelling.powerText power ++ rest) := by
  cases fraction with
  | nil =>
      rw [Spelling.fractionText_nil, List.nil_append]
      cases power with
      | none =>
          cases rest with
          | nil => rfl
          | cons c after => simp [Spelling.powerText, fractionPart, (ends.notNumeral rfl).2.1]
      | some found => rfl
  | cons c others =>
      have stops : NoDigit (Spelling.powerText power ++ rest) := by
        cases power with
        | none => exact ends.noDigit
        | some found =>
            rintro d ⟨⟩
            rfl
      obtain ⟨taken, dropped⟩ := takeWhile_digits digits stops
      rw [Spelling.fractionText_cons, List.cons_append, fractionPart, taken, dropped]
      simp

/-- The digits before the point are read up to their end. -/
theorem wholePart_of_leads {whole after : List Char} (digits : IsDigits whole)
    (leads : whole = ['0'] ∨ whole.head? ≠ some '0') (stops : NoDigit after) :
    wholePart (whole ++ after) = (whole, after) := by
  obtain ⟨first, others, rfl⟩ := List.exists_cons_of_ne_nil digits.some
  obtain ⟨taken, dropped⟩ := takeWhile_digits digits.digit stops
  rw [List.cons_append] at taken dropped
  rw [List.cons_append, wholePart, taken, dropped]
  by_cases zero : first = '0'
  · rcases leads with alone | other
    · obtain ⟨rfl, rfl⟩ := List.cons.inj alone
      rfl
    · exact absurd (congrArg some zero) other
  · simp [zero]

end Parts

/-! ### Whole numbers -/

/-- Digits are read as the number that they name. -/
theorem digitRun?_of_isDigit {digits : List Char} (digit : ∀ c ∈ digits, c.isDigit = true) :
    digitRun? true digits = some (digits.map plainValue) := by
  induction digits with
  | nil => rfl
  | cons c rest inductionHypothesis =>
      have here := decimalValue?_of_isDigit (digit c List.mem_cons_self)
      have later := inductionHypothesis fun d member => digit d (List.mem_cons_of_mem c member)
      have visible : (c == '_') = false := by
        rw [beq_eq_false_iff_ne]
        rintro rfl
        simpa using digit '_' List.mem_cons_self
      simp [digitRun?, visible, here, later]

/-- A whole number of not too many digits is read back. -/
theorem natural?_toDigits {number : Nat}
    (short : (Nat.toDigits 10 number).length ≤ maxNumeralDigits) :
    natural? (Nat.toDigits 10 number) = some number := by
  have digits := isDigits_toDigits number
  have named := ofDigitValues_toDigits number
  generalize Nat.toDigits 10 number = text at *
  obtain ⟨first, rest, rfl⟩ := List.exists_cons_of_ne_nil digits.some
  have here := decimalValue?_of_isDigit (digits.digit first List.mem_cons_self)
  have later := digitRun?_of_isDigit fun d member => digits.digit d (List.mem_cons_of_mem first member)
  have read : digitRun? false (first :: rest) = some ((first :: rest).map plainValue) := by
    simp [digitRun?, here, later]
  rw [natural?, read, Option.bind_eq_bind, Option.bind_some, List.length_map, if_pos short, named]
  rfl

/-- Nothing is trimmed from a text without spaces. -/
theorem trimNumeral_eq_self {text : List Char} (visible : ∀ c ∈ text, isNumeralSpace c = false) :
    trimNumeral text = text := by
  have kept : ∀ text : List Char, (∀ c ∈ text, isNumeralSpace c = false) →
      text.dropWhile isNumeralSpace = text := by
    intro text visible
    cases text with
    | nil => rfl
    | cons c rest => simp [visible c List.mem_cons_self]
  rw [trimNumeral, kept text visible,
    kept text.reverse fun c member => visible c (List.mem_reverse.mp member), List.reverse_reverse]

/-- The sign and the digits of a whole number are read as the number. -/
theorem integer?_signed {value : Int}
    (short : (Nat.toDigits 10 value.natAbs).length ≤ maxNumeralDigits) :
    integer? (Spelling.signText (decide (value < 0)) ++ Nat.toDigits 10 value.natAbs) =
      some value := by
  have read := natural?_toDigits short
  have digits := isDigits_toDigits value.natAbs
  generalize Nat.toDigits 10 value.natAbs = text at *
  have visible : ∀ c ∈ text, isNumeralSpace c = false := fun c member => by
    simp [isNumeralSpace, isBlank_of_isDigit (digits.digit c member)]
  by_cases below : value < 0
  · have signed : ∀ c ∈ '-' :: text, isNumeralSpace c = false := fun c member => by
      rcases List.mem_cons.mp member with rfl | digit
      · rfl
      · exact visible c digit
    have negated : -Int.ofNat value.natAbs = value := by
      rw [Int.ofNat_eq_natCast]
      omega
    simp only [below, decide_true, Spelling.signText, if_true, List.singleton_append, integer?,
      trimNumeral_eq_self signed, read, Option.map_some, negated]
  · have whole : Int.ofNat value.natAbs = value := by
      rw [Int.ofNat_eq_natCast]
      omega
    simp only [below, decide_false, Spelling.signText, Bool.false_eq_true, if_false,
      List.nil_append, integer?, trimNumeral_eq_self visible]
    split
    · simpa using digits.digit '-' List.mem_cons_self
    · simpa using digits.digit '+' List.mem_cons_self
    · rw [read, Option.map_some, whole]

/-! ### Numbers as values -/

/-- A number is read from its spelling: without a point and an exponent as a whole number, else
as a binary64 number. -/
theorem numberThen_text {spelling : Spelling} {rest : List Char} (sound : spelling.IsSound)
    (leads : spelling.whole = ['0'] ∨ spelling.whole.head? ≠ some '0') (ends : Ends rest) :
    numberThen (spelling.text ++ rest) =
      if (Spelling.fractionText spelling.fraction).isEmpty &&
          (Spelling.powerText spelling.power).isEmpty then
        match integer? (Spelling.signText spelling.negative ++ spelling.whole) with
        | some value => .ok (.integer value, rest)
        | none => .error .numeralTooLong
      else
        .ok (.float (.ofDecimal spelling.negative spelling.digits spelling.exponent), rest) := by
  have read := Spelling.read?_text sound
  obtain ⟨first, others, written, digit⟩ := Spelling.exists_whole_cons sound
  have stops : NoDigit (Spelling.fractionText spelling.fraction ++
      (Spelling.powerText spelling.power ++ rest)) := by
    cases spelling.fraction with
    | nil =>
        cases spelling.power with
        | none => exact ends.noDigit
        | some found =>
            rintro c ⟨⟩
            rfl
    | cons d after =>
        rintro c ⟨⟩
        rfl
  have unsigned : spelling.whole.head? ≠ some '-' := by
    rw [written]
    rintro ⟨⟩
    simp at digit
  have whole := wholePart_of_leads sound.whole leads stops
  have fraction : fractionPart (Spelling.fractionText spelling.fraction ++
      (Spelling.powerText spelling.power ++ rest)) =
      (Spelling.fractionText spelling.fraction, Spelling.powerText spelling.power ++ rest) :=
    fractionPart_fractionText sound.fraction ends
  have power := exponentPart_powerText sound.power ends
  have some : spelling.whole.isEmpty = false := List.isEmpty_eq_false_iff.mpr sound.whole.some
  have minus : ((spelling.text ++ rest).head? == Option.some '-') = spelling.negative ∧
      (if spelling.negative then (spelling.text ++ rest).tail else spelling.text ++ rest) =
        spelling.whole ++ (Spelling.fractionText spelling.fraction ++
          (Spelling.powerText spelling.power ++ rest)) := by
    cases negative : spelling.negative with
    | false => simpa [Spelling.text, Spelling.signText, negative, written] using unsigned
    | true => simp [Spelling.text, Spelling.signText, negative]
  rw [numberThen, minus.1, minus.2, whole]
  simp only [some, Bool.false_eq_true, if_false, fraction, power]
  rewrite [← Spelling.signText, ← Spelling.text, read]
  rfl

/-- A text that begins with a digit, or with a minus and a digit, is the text of a number. -/
theorem valueThen_digit {room fuel : Nat} {first : Char} (digit : first.isDigit = true)
    (rest : List Char) (negative : Bool) :
    valueThen room (fuel + 1) (Spelling.signText negative ++ first :: rest) =
      numberThen (Spelling.signText negative ++ first :: rest) := by
  have apart : ∀ other : Char, other.isDigit = false → other ≠ first := by
    rintro other none rfl
    rw [digit] at none
    cases none
  have differs : ∀ other : Char, other.isDigit = false → first ≠ other :=
    fun other none => (apart other none).symm
  cases negative with
  | false =>
      have noWord : wordThen? (first :: rest) = none := by simp [wordThen?, wordValues, apart]
      simp [Spelling.signText, valueThen, differs, noWord]
  | true =>
      have noWord : wordThen? ('-' :: first :: rest) = none := by
        simp [wordThen?, wordValues, apart]
      simp [Spelling.signText, valueThen, noWord]

/-- A spelling is read as a value as it is read as a number. -/
theorem valueThen_text {room fuel : Nat} {spelling : Spelling} (sound : spelling.IsSound)
    (rest : List Char) :
    valueThen room (fuel + 1) (spelling.text ++ rest) = numberThen (spelling.text ++ rest) := by
  obtain ⟨first, others, written, digit⟩ := Spelling.exists_whole_cons sound
  simp only [Spelling.text, written, List.append_assoc, List.cons_append]
  exact valueThen_digit digit _ _

/-- What is written for a whole number is read as the number. -/
theorem isTextOf_writtenInteger {value : Int}
    (short : (Nat.toDigits 10 value.natAbs).length ≤ maxNumeralDigits) :
    IsTextOf (writtenInteger value) (.integer value) := by
  intro room fuel rest ends enough
  have flat : (Value.integer value).depth ≤ room := Nat.zero_le room
  rw [ifRoom_of_le flat]
  have digits := isDigits_toDigits value.natAbs
  have sound : Spelling.IsSound ⟨decide (value < 0), Nat.toDigits 10 value.natAbs, [], none⟩ :=
    ⟨digits, by simp, by simp⟩
  have spelled : Spelling.text ⟨decide (value < 0), Nat.toDigits 10 value.natAbs, [], none⟩ =
      writtenInteger value := by
    by_cases below : value < 0 <;>
      simp [Spelling.text, Spelling.signText, Spelling.powerText, writtenInteger, below]
  have leads : Nat.toDigits 10 value.natAbs = ['0'] ∨
      (Nat.toDigits 10 value.natAbs).head? ≠ some '0' := by
    rcases Nat.eq_zero_or_pos value.natAbs with zero | positive
    · exact Or.inl (by rw [zero]; rfl)
    · exact Or.inr (head?_toDigits positive)
  obtain ⟨less, rfl⟩ : ∃ less, fuel = less + 1 := by
    obtain ⟨first, others, begins⟩ := List.exists_cons_of_ne_nil digits.some
    rw [← spelled] at enough
    simp only [Spelling.text, begins, List.length_append, List.length_cons] at enough
    exact ⟨fuel - 1, by omega⟩
  rw [← spelled, valueThen_text sound, numberThen_text sound leads ends]
  simp [Spelling.powerText, integer?_signed short]

/-- What is written for a number of the format is read as the number. -/
theorem isTextOf_float {value : Binary64} (fits : value.Fits) :
    IsTextOf (value.text storedLayout).toList (.float value) := by
  intro room fuel rest ends enough
  have flat : (Value.float value).depth ≤ room := Nat.zero_le room
  rw [ifRoom_of_le flat]
  cases value with
  | nan =>
      obtain ⟨less, rfl⟩ : ∃ less, fuel = less + 1 :=
        ⟨fuel - 1, by have : 3 ≤ fuel := enough; omega⟩
      rfl
  | infinity negative =>
      obtain ⟨less, rfl⟩ : ∃ less, fuel = less + 1 := by
        cases negative with
        | false => exact ⟨fuel - 1, by have : 8 ≤ fuel := enough; omega⟩
        | true => exact ⟨fuel - 1, by have : 9 ≤ fuel := enough; omega⟩
      cases negative <;> rfl
  | finite negative significand exponent =>
      obtain ⟨spelling, decimal, spells, written, reads⟩ :=
        Binary64.exists_spelling negative fits storedLayout
      have marked : ((Spelling.fractionText spelling.fraction).isEmpty &&
          (Spelling.powerText spelling.power).isEmpty) = false := by
        rcases spells.marked with fraction | power
        · rw [Spelling.fractionText_of_some fraction]
          rfl
        · obtain ⟨found, shown⟩ := Option.ne_none_iff_exists'.mp power
          rw [shown]
          simp [Spelling.powerText]
      obtain ⟨less, rfl⟩ : ∃ less, fuel = less + 1 := by
        obtain ⟨first, others, begins, -⟩ := Spelling.exists_whole_cons spells.sound
        rw [← written] at enough
        simp only [Spelling.text, begins, List.length_append, List.length_cons] at enough
        exact ⟨fuel - 1, by omega⟩
      rw [← written, valueThen_text spells.sound,
        numberThen_text spells.sound spells.leads ends, marked, if_neg (by simp), reads]

/-- Whatever can be stored is read back. -/
theorem Storable.restorable {value : Value} (storable : Storable value) : Restorable value := by
  induction storable with
  | null => exact .null
  | bool value => exact .bool value
  | integer short => exact .integer (isTextOf_writtenInteger short)
  | float fits => exact .float (isTextOf_float fits)
  | text value => exact .text value
  | list each inductionHypothesis => exact .list inductionHypothesis
  | record distinct each inductionHypothesis => exact .record distinct inductionHypothesis

end TapeLab.Json
