import TapeLab.Number.Reading
import TapeLab.Proofs.Number.Shortest
import TapeLab.Proofs.Text.Digits
import TapeLab.Proofs.Text.Trimming

/-!
# How numbers are spelled

A stored number is a sign, digits, perhaps a point with more digits, and perhaps an exponent: a
`Spelling`.  A spelling is read as its value (`Spelling.read?_text`), and a number of the format
is spelled as the value of its shortest decimal, so it is read back (`Binary64.exists_spelling`).
-/

namespace TapeLab.Number

open Text

/-- Plain digits, and at least one of them. -/
structure IsDigits (text : List Char) : Prop where
  some : text ≠ []
  digit : ∀ c ∈ text, c.isDigit = true

/-- The digits of a number are digits. -/
theorem isDigits_toDigits (number : Nat) : IsDigits (Nat.toDigits 10 number) where
  some := Nat.toDigits_ne_nil
  digit := fun _ member => Nat.isDigit_of_mem_toDigits (by omega) (by omega) member

/-- The parts of a number as it is spelled: its sign, the digits before and after the point, and
the sign and digits of its exponent.  Without digits after it there is no point. -/
structure Spelling where
  negative : Bool
  whole : List Char
  fraction : List Char
  power : Option (Bool × List Char)

namespace Spelling

/-- A minus, or nothing. -/
def signText (negative : Bool) : List Char :=
  if negative then ['-'] else []

/-- A point with digits after it, or nothing. -/
def fractionText (fraction : List Char) : List Char :=
  if fraction.isEmpty then [] else '.' :: fraction

@[simp] theorem fractionText_nil : fractionText [] = [] := rfl

@[simp] theorem fractionText_cons (c : Char) (rest : List Char) :
    fractionText (c :: rest) = '.' :: c :: rest := rfl

theorem fractionText_of_some {fraction : List Char} (some : fraction ≠ []) :
    fractionText fraction = '.' :: fraction := by
  cases fraction with
  | nil => exact absurd rfl some
  | cons c rest => rfl

/-- An exponent, or nothing. -/
def powerText : Option (Bool × List Char) → List Char
  | none => []
  | some (negative, digits) => 'e' :: (if negative then '-' else '+') :: digits

/-- A number as it is spelled. -/
def text (spelling : Spelling) : List Char :=
  signText spelling.negative ++ spelling.whole ++ fractionText spelling.fraction ++
    powerText spelling.power

/-- What an exponent comes to. -/
def powerValue : Option (Bool × List Char) → Int
  | none => 0
  | some (negative, digits) =>
    let number := Int.ofNat (ofDigitValues (digits.map plainValue))
    if negative then -number else number

/-- The digits of a spelling, as a number. -/
def digits (spelling : Spelling) : Nat :=
  ofDigitValues ((spelling.whole ++ spelling.fraction).map plainValue)

/-- The place of the last digit of a spelling. -/
def exponent (spelling : Spelling) : Int :=
  powerValue spelling.power - spelling.fraction.length

/-- Every part of a spelling is made of digits. -/
structure IsSound (spelling : Spelling) : Prop where
  whole : IsDigits spelling.whole
  fraction : ∀ c ∈ spelling.fraction, c.isDigit = true
  power : ∀ found ∈ spelling.power, IsDigits found.2

end Spelling

/-- Digits at the front of a text have their values. -/
theorem leadingDigits_append {text : List Char} (digits : ∀ c ∈ text, c.isDigit = true)
    (rest : List Char) :
    leadingDigits (text ++ rest) =
      (text.map plainValue ++ (leadingDigits rest).1, (leadingDigits rest).2) := by
  induction text with
  | nil => rfl
  | cons c others inductionHypothesis =>
      have here := decimalValue?_of_isDigit (digits c List.mem_cons_self)
      have later := inductionHypothesis fun d member => digits d (List.mem_cons_of_mem c member)
      simp only [List.cons_append, leadingDigits, here, later, List.map_cons]

/-- No digits are before a character that is none. -/
theorem leadingDigits_cons {c : Char} (other : decimalValue? c = none) (rest : List Char) :
    leadingDigits (c :: rest) = ([], c :: rest) := by
  simp only [leadingDigits, other]

/-- The marks of a spelling have no value as digits. -/
theorem decimalValue?_mark {c : Char} (mark : c ∈ ['.', 'e', '+', '-']) : decimalValue? c = none := by
  have all : ['.', 'e', '+', '-'].all (fun c => (decimalValue? c).isNone) = true := by decide
  exact Option.isNone_iff_eq_none.mp (List.all_eq_true.mp all c mark)

/-- A text without underscores is what is left of it without them. -/
theorem withoutUnderscores?_eq {text : List Char} (plain : '_' ∉ text) (afterDigit : Bool) :
    withoutUnderscores? afterDigit text = some text := by
  induction text generalizing afterDigit with
  | nil => rfl
  | cons c rest inductionHypothesis =>
      simp only [List.mem_cons, not_or] at plain
      have visible : (c == '_') = false := beq_eq_false_iff_ne.mpr (Ne.symm plain.1)
      simp [withoutUnderscores?, visible, inductionHypothesis plain.2]

namespace Spelling

variable {spelling : Spelling}

/-- An exponent is read as what it comes to. -/
theorem exponent?_powerText {power : Option (Bool × List Char)}
    (digits : ∀ found ∈ power, IsDigits found.2) : exponent? (powerText power) = some (powerValue power) := by
  cases power with
  | none => rfl
  | some found =>
      obtain ⟨negative, text⟩ := found
      have sound := digits _ rfl
      have read := leadingDigits_append sound.digit []
      rw [List.append_nil] at read
      have some : (text.map plainValue).isEmpty = false := by
        rw [List.isEmpty_eq_false_iff]
        exact fun nothing => sound.some (List.map_eq_nil_iff.mp nothing)
      cases negative <;>
        simp [powerText, exponent?, leadingSign, read, leadingDigits, sound.some, powerValue]

/-- What follows the digits before the point. -/
theorem leadingDigits_powerText (power : Option (Bool × List Char)) :
    leadingDigits (powerText power) = ([], powerText power) := by
  cases power with
  | none => rfl
  | some found => exact leadingDigits_cons (decimalValue?_mark (by simp)) _

/-- The parts of a number are read from its spelling. -/
theorem decimalParts?_text (sound : spelling.IsSound) :
    decimalParts? (spelling.whole ++ fractionText spelling.fraction ++ powerText spelling.power) =
      some ⟨(spelling.whole ++ spelling.fraction).map plainValue, spelling.exponent⟩ := by
  obtain ⟨negative, whole, fraction, power⟩ := spelling
  have wholeDigits : (whole.map plainValue).isEmpty = false := by
    rw [List.isEmpty_eq_false_iff]
    exact fun nothing => sound.whole.some (List.map_eq_nil_iff.mp nothing)
  have powerRead : exponent? (powerText power) = some (powerValue power) :=
    exponent?_powerText sound.power
  have begins := leadingDigits_append sound.whole.digit (fractionText fraction ++ powerText power)
  cases fraction with
  | nil =>
      -- without a point the exponent follows at once, if there is one
      rw [fractionText_nil, List.nil_append, leadingDigits_powerText, List.append_nil] at begins
      rw [fractionText_nil, List.append_nil, decimalParts?, begins]
      cases power with
      | none => simp [wholeDigits, powerText, exponent?, powerValue, exponent]
      | some found =>
          rw [powerText] at powerRead
          simp [wholeDigits, powerText, powerRead, exponent]
  | cons c rest =>
      have point : decimalValue? '.' = none := decimalValue?_mark (by simp)
      have after : leadingDigits (c :: (rest ++ powerText power)) =
          ((c :: rest).map plainValue, powerText power) := by
        have read := leadingDigits_append sound.fraction (powerText power)
        rwa [leadingDigits_powerText, List.append_nil] at read
      rw [fractionText_cons, List.cons_append, leadingDigits_cons point, List.append_nil] at begins
      rw [fractionText_cons, List.append_assoc, List.cons_append, decimalParts?, begins]
      simp [after, wholeDigits, powerRead, exponent]

/-- The characters of a spelling are digits and marks. -/
theorem mem_text (sound : spelling.IsSound) {c : Char} (member : c ∈ spelling.text) :
    c.isDigit = true ∨ c ∈ ['.', 'e', '+', '-'] := by
  simp only [text, List.mem_append] at member
  rcases member with ((sign | whole) | fraction) | power
  · cases negative : spelling.negative with
    | false => simp [signText, negative] at sign
    | true =>
        rw [signText, negative, if_pos rfl, List.mem_singleton] at sign
        exact Or.inr (by simp [sign])
  · exact Or.inl (sound.whole.digit c whole)
  · cases written : spelling.fraction with
    | nil => simp [written] at fraction
    | cons d rest =>
        rw [written, fractionText_cons, ← written] at fraction
        rcases List.mem_cons.mp fraction with rfl | digit
        · exact Or.inr (by simp)
        · exact Or.inl (sound.fraction c digit)
  · cases written : spelling.power with
    | none => simp [written, powerText] at power
    | some found =>
        obtain ⟨negative, digits⟩ := found
        rw [written, powerText] at power
        rcases List.mem_cons.mp power with rfl | later
        · exact Or.inr (by simp)
        rcases List.mem_cons.mp later with rfl | digit
        · exact Or.inr (by cases negative <;> simp)
        · exact Or.inl ((sound.power _ written).digit c digit)

/-- Nothing is trimmed from a spelling. -/
theorem trim_text (sound : spelling.IsSound) : trim spelling.text = spelling.text := by
  have visible : ∀ c ∈ spelling.text, isBlank c = false := by
    intro c member
    rcases mem_text sound member with digit | mark
    · exact isBlank_of_isDigit digit
    · have all : ['.', 'e', '+', '-'].all (fun c => !isBlank c) = true := by decide
      simpa using List.all_eq_true.mp all c mark
  exact trim_eq_self_iff.mpr
    ⟨fun c first => visible c (List.mem_of_mem_head? first),
      fun c last => visible c (List.mem_of_mem_getLast? last)⟩

/-- The first digit of a spelling. -/
theorem exists_whole_cons (sound : spelling.IsSound) :
    ∃ first rest, spelling.whole = first :: rest ∧ first.isDigit = true := by
  obtain ⟨first, rest, written⟩ := List.exists_cons_of_ne_nil sound.whole.some
  exact ⟨first, rest, written, sound.whole.digit first (written ▸ List.mem_cons_self)⟩

/-- The sign of a spelling is read off before its digits. -/
theorem leadingSign_text (sound : spelling.IsSound) :
    leadingSign spelling.text = (spelling.negative,
      spelling.whole ++ fractionText spelling.fraction ++ powerText spelling.power) := by
  obtain ⟨first, rest, written, digit⟩ := exists_whole_cons sound
  have unsigned : (first == '-') = false ∧ (first == '+') = false := by
    constructor <;> refine beq_eq_false_iff_ne.mpr ?_ <;> rintro rfl <;> simp at digit
  cases negative : spelling.negative <;>
    simp [text, signText, negative, written, leadingSign, unsigned]

end Spelling

/-- No word begins with a digit. -/
theorem wordValue?_of_isDigit {first : Char} (digit : first.isDigit = true) (negative : Bool)
    (rest : List Char) : wordValue? negative (first :: rest) = none := by
  obtain ⟨least, most⟩ := toNat_of_isDigit digit
  have kept : first.toLower = first := by
    refine dif_neg ?_
    rintro ⟨large, -⟩
    have := UInt32.le_iff_toNat_le.mp large
    exact absurd this (by simpa using show first.toNat < 65 by omega)
  have begins : ∀ word : List Char, String.ofList ((first :: rest).map Char.toLower) =
      String.ofList word → word.head? = some first := by
    intro word same
    rw [← String.ofList_injective same, List.map_cons, kept]
    rfl
  rw [wordValue?]
  split
  · next same => exact absurd (begins _ same) (by rintro ⟨⟩; simp at digit)
  · next same => exact absurd (begins _ same) (by rintro ⟨⟩; simp at digit)
  · next same => exact absurd (begins _ same) (by rintro ⟨⟩; simp at digit)
  · rfl

/-- A spelling is read as its digits at their places. -/
theorem Spelling.read?_text {spelling : Spelling} (sound : spelling.IsSound) :
    Binary64.read? spelling.text =
      some (.ofDecimal spelling.negative spelling.digits spelling.exponent) := by
  obtain ⟨first, rest, written, digit⟩ := exists_whole_cons sound
  have plain : '_' ∉ spelling.whole ++ fractionText spelling.fraction ++
      powerText spelling.power := by
    intro member
    have inside : '_' ∈ spelling.text := by
      rw [text, List.append_assoc, List.append_assoc, ← List.append_assoc spelling.whole]
      exact List.mem_append_right _ member
    rcases mem_text sound inside with digit | mark
    · simp at digit
    · simp at mark
  have noWord : wordValue? spelling.negative (spelling.whole ++ fractionText spelling.fraction ++
      powerText spelling.power) = none := by
    rw [written, List.cons_append, List.cons_append]
    exact wordValue?_of_isDigit digit _ _
  simp only [Binary64.read?, trim_text sound, leadingSign_text sound, noWord,
    withoutUnderscores?_eq plain, Option.bind_eq_bind, Option.bind_some, decimalParts?_text sound]
  rfl

/-! ### The spelling of a number -/

/-- A spelling of a decimal, with a point or an exponent and without needless zeros in front. -/
structure Spelling.Spells (spelling : Spelling) (decimal : Decimal) : Prop where
  sound : spelling.IsSound
  leads : spelling.whole = ['0'] ∨ spelling.whole.head? ≠ some '0'
  marked : spelling.fraction ≠ [] ∨ spelling.power ≠ none
  value : (spelling.digits * 10 ^ spelling.exponent : ℚ) = decimal.digits * 10 ^ decimal.exponent

section Spelled

variable {decimal : Decimal} (negative : Bool)

/-- Zeros put before a number leave it as it is. -/
theorem ofDigitValues_padded (count number : Nat) :
    ofDigitValues ((List.replicate count '0' ++ Nat.toDigits 10 number).map plainValue) =
      number := by
  rw [List.map_append, List.map_replicate, ofDigitValues_append, ofDigitValues_toDigits]
  have zeros : ofDigitValues (List.replicate count (plainValue '0')) = 0 :=
    ofDigitValues_zeros count
  rw [zeros, Nat.zero_mul, Nat.zero_add]

/-- Zeros in front of a number's digits are digits. -/
theorem isDigits_padded (count number : Nat) :
    IsDigits (List.replicate count '0' ++ Nat.toDigits 10 number) where
  some := List.append_ne_nil_of_right_ne_nil _ Nat.toDigits_ne_nil
  digit c member := by
    rcases List.mem_append.mp member with zero | digit
    · rw [(List.mem_replicate.mp zero).2]
      rfl
    · exact (isDigits_toDigits number).digit c digit

/-- A zero, a point, zeros and the digits are a spelling. -/
theorem exists_spells_below
    (small : decimal.exponent + (Nat.toDigits 10 decimal.digits).length ≤ 0) :
    ∃ spelling : Spelling, spelling.Spells decimal ∧ spelling.negative = negative ∧
      spelling.text = Spelling.signText negative ++
        (positional (Nat.toDigits 10 decimal.digits)
          (decimal.exponent + (Nat.toDigits 10 decimal.digits).length)).toList := by
  set digits := Nat.toDigits 10 decimal.digits with shown
  set count := (-(decimal.exponent + digits.length)).toNat with counted
  have fraction := isDigits_padded count decimal.digits
  rw [← shown] at fraction
  refine ⟨⟨negative, ['0'], List.replicate count '0' ++ digits, none⟩, ⟨⟨?_, ?_, ?_⟩, ?_, ?_, ?_⟩,
    rfl, ?_⟩
  · exact isDigits_toDigits 0
  · exact fraction.digit
  · rintro found ⟨⟩
  · exact Or.inl rfl
  · exact Or.inl fraction.some
  · have number : Spelling.digits ⟨negative, ['0'], List.replicate count '0' ++ digits, none⟩ =
        decimal.digits := ofDigitValues_padded (count + 1) decimal.digits
    have place : Spelling.exponent ⟨negative, ['0'], List.replicate count '0' ++ digits, none⟩ =
        decimal.exponent := by
      simp only [Spelling.exponent, Spelling.powerValue, List.length_append, List.length_replicate]
      omega
    rw [number, place]
  · rw [positional, if_pos small, zeros, ← counted, Spelling.text,
      Spelling.fractionText_of_some fraction.some]
    simp [Spelling.powerText]

/-- The digits, zeros, a point and a zero are a spelling. -/
theorem exists_spells_above (some : 0 < decimal.digits)
    (large : 0 < decimal.exponent + (Nat.toDigits 10 decimal.digits).length)
    (whole : 0 ≤ decimal.exponent) :
    ∃ spelling : Spelling, spelling.Spells decimal ∧ spelling.negative = negative ∧
      spelling.text = Spelling.signText negative ++
        (positional (Nat.toDigits 10 decimal.digits)
          (decimal.exponent + (Nat.toDigits 10 decimal.digits).length)).toList := by
  have shown := isDigits_toDigits decimal.digits
  have leads := head?_toDigits some
  have named := ofDigitValues_toDigits decimal.digits
  set digits := Nat.toDigits 10 decimal.digits
  obtain ⟨count, counted⟩ := Int.eq_ofNat_of_zero_le whole
  refine ⟨⟨negative, digits ++ List.replicate count '0', ['0'], none⟩, ⟨⟨⟨?_, ?_⟩, ?_, ?_⟩, ?_, ?_,
    ?_⟩, rfl, ?_⟩
  · exact List.append_ne_nil_of_left_ne_nil shown.some _
  · intro c member
    rcases List.mem_append.mp member with digit | zero
    · exact shown.digit c digit
    · rw [(List.mem_replicate.mp zero).2]
      rfl
  · exact (isDigits_toDigits 0).digit
  · rintro found ⟨⟩
  · refine Or.inr ?_
    rwa [List.head?_append, Option.or_of_isSome (List.isSome_head?.mpr shown.some)]
  · exact Or.inl (List.cons_ne_nil _ _)
  · have zeros : ofDigitValues (List.replicate (count + 1) (plainValue '0')) = 0 :=
      ofDigitValues_zeros (count + 1)
    have number : Spelling.digits ⟨negative, digits ++ List.replicate count '0', ['0'], none⟩ =
        decimal.digits * 10 ^ (count + 1) := by
      rw [Spelling.digits, List.append_assoc, ← List.replicate_succ', List.map_append,
        List.map_replicate, ofDigitValues_append, named, zeros, List.length_replicate,
        Nat.add_zero]
    rw [number, counted]
    simp only [Spelling.exponent, Spelling.powerValue, List.length_singleton, Nat.cast_mul,
      Nat.cast_pow, Nat.cast_ofNat, zpow_natCast, pow_succ]
    norm_num
    ring
  · have placed : (decimal.exponent + digits.length).toNat = count + digits.length := by omega
    rw [positional, if_neg (by omega), if_pos (by omega), placed, Nat.add_sub_cancel]
    simp [Spelling.text, Spelling.powerText, zeros]

/-- The digits with a point between them are a spelling. -/
theorem exists_spells_between (some : 0 < decimal.digits)
    (large : 0 < decimal.exponent + (Nat.toDigits 10 decimal.digits).length)
    (part : decimal.exponent < 0) :
    ∃ spelling : Spelling, spelling.Spells decimal ∧ spelling.negative = negative ∧
      spelling.text = Spelling.signText negative ++
        (positional (Nat.toDigits 10 decimal.digits)
          (decimal.exponent + (Nat.toDigits 10 decimal.digits).length)).toList := by
  have shown := isDigits_toDigits decimal.digits
  have leads := head?_toDigits some
  have named := ofDigitValues_toDigits decimal.digits
  set digits := Nat.toDigits 10 decimal.digits
  obtain ⟨places, placed⟩ : ∃ places : Nat, decimal.exponent + digits.length = places :=
    Int.eq_ofNat_of_zero_le large.le
  have short : places < digits.length := by omega
  have after : digits.drop places ≠ [] := fun nothing => by
    have := List.drop_eq_nil_iff.mp nothing
    omega
  refine ⟨⟨negative, digits.take places, digits.drop places, none⟩, ⟨⟨⟨?_, ?_⟩, ?_, ?_⟩, ?_, ?_,
    ?_⟩, rfl, ?_⟩
  · intro nothing
    rcases List.take_eq_nil_iff.mp nothing with none | none
    · omega
    · exact shown.some none
  · exact fun c member => shown.digit c (List.mem_of_mem_take member)
  · exact fun c member => shown.digit c (List.mem_of_mem_drop member)
  · rintro found ⟨⟩
  · refine Or.inr ?_
    rwa [List.head?_take, if_neg (by omega)]
  · exact Or.inl after
  · have number : Spelling.digits ⟨negative, digits.take places, digits.drop places, none⟩ =
        decimal.digits := by
      rw [Spelling.digits, List.take_append_drop, named]
    have place : Spelling.exponent ⟨negative, digits.take places, digits.drop places, none⟩ =
        decimal.exponent := by
      simp only [Spelling.exponent, Spelling.powerValue, List.length_drop]
      omega
    rw [number, place]
  · rw [positional, if_neg (by omega), if_neg (by omega), placed, Int.toNat_natCast, Spelling.text,
      Spelling.fractionText_of_some after]
    simp [Spelling.powerText]

/-- Scientific notation is a spelling. -/
theorem exists_spells_scientific (some : 0 < decimal.digits) :
    ∃ spelling : Spelling, spelling.Spells decimal ∧ spelling.negative = negative ∧
      spelling.text = Spelling.signText negative ++
        (scientific (Nat.toDigits 10 decimal.digits)
          (decimal.exponent + (Nat.toDigits 10 decimal.digits).length - 1)).toList := by
  have shown := isDigits_toDigits decimal.digits
  have leads := head?_toDigits some
  have named := ofDigitValues_toDigits decimal.digits
  generalize Nat.toDigits 10 decimal.digits = digits at *
  obtain ⟨first, rest, rfl⟩ := List.exists_cons_of_ne_nil shown.some
  set leading := decimal.exponent + (first :: rest).length - 1 with led
  set magnitude := List.replicate (2 - (Nat.toDigits 10 leading.natAbs).length) '0' ++
    Nat.toDigits 10 leading.natAbs with sized
  refine ⟨⟨negative, [first], rest, Option.some (decide (leading < 0), magnitude)⟩, ⟨⟨⟨?_, ?_⟩, ?_,
    ?_⟩, ?_, ?_, ?_⟩, rfl, ?_⟩
  · exact List.cons_ne_nil _ _
  · intro c member
    rw [List.mem_singleton.mp member]
    exact shown.digit first List.mem_cons_self
  · exact fun c member => shown.digit c (List.mem_cons_of_mem _ member)
  · rintro found ⟨⟩
    exact isDigits_padded _ _
  · exact Or.inr leads
  · exact Or.inr (by simp)
  · have number : Spelling.digits ⟨negative, [first], rest,
        Option.some (decide (leading < 0), magnitude)⟩ = decimal.digits := named
    have value : ofDigitValues (magnitude.map plainValue) = leading.natAbs :=
      ofDigitValues_padded _ _
    have place : Spelling.exponent ⟨negative, [first], rest,
        Option.some (decide (leading < 0), magnitude)⟩ = decimal.exponent := by
      rw [List.length_cons] at led
      simp only [Spelling.exponent, Spelling.powerValue, value, decide_eq_true_eq,
        Int.ofNat_eq_natCast]
      split <;> omega
    rw [number, place]
  · have mark : (if leading < 0 then "e-" else "e+").toList =
        'e' :: [if decide (leading < 0) then '-' else '+'] := by
      by_cases below : leading < 0 <;> simp [below]
    cases rest with
    | nil => simp [scientific, Spelling.text, Spelling.powerText, ← sized, mark]
    | cons second others => simp [scientific, Spelling.text, Spelling.powerText, ← sized, mark]

/-- Every number of the format is spelled as a decimal that is read as the number. -/
theorem Binary64.exists_spelling {significand : Nat} {exponent : Int}
    (fits : Binary64.FitsAt significand exponent) (layout : Layout) :
    ∃ (spelling : Spelling) (decimal : Decimal), spelling.Spells decimal ∧
      spelling.text = ((Binary64.finite negative significand exponent).text layout).toList ∧
      Binary64.ofDecimal spelling.negative spelling.digits spelling.exponent =
        .finite negative significand exponent := by
  have sign : (if negative then "-" else "").toList = Spelling.signText negative := by
    cases negative <;> rfl
  rcases Nat.eq_zero_or_pos significand with rfl | positive
  · refine ⟨⟨negative, ['0'], ['0'], none⟩, ⟨0, 0⟩, ⟨⟨isDigits_toDigits 0,
      (isDigits_toDigits 0).digit, ?_⟩, Or.inl rfl, Or.inl (List.cons_ne_nil _ _), ?_⟩, ?_, ?_⟩
    · rintro found ⟨⟩
    · have nothing : Spelling.digits ⟨negative, ['0'], ['0'], none⟩ = 0 := rfl
      rw [nothing, Nat.cast_zero, zero_mul, zero_mul]
    · simp [Binary64.text, Spelling.text, Spelling.powerText, sign]
    · have least : exponent = Binary64.minExponent := by
        by_contra other
        have more : Binary64.minExponent < exponent := lt_of_le_of_ne fits.least (Ne.symm other)
        exact absurd (fits.full more) (by norm_num)
      rw [least]
      rfl
  · obtain ⟨some, reads⟩ := Binary64.ofDecimal_shortest fits positive negative
    obtain ⟨spelling, spells, signed, written⟩ : ∃ spelling : Spelling,
        spelling.Spells (shortest significand exponent) ∧ spelling.negative = negative ∧
          spelling.text = ((Binary64.finite negative significand exponent).text layout).toList := by
      have visible : (significand == 0) = false := beq_eq_false_iff_ne.mpr positive.ne'
      simp only [Binary64.text, visible, Bool.false_eq_true, if_false]
      split
      · rw [String.toList_append, sign]
        rcases lt_or_ge 0 ((shortest significand exponent).exponent +
          (Nat.toDigits 10 (shortest significand exponent).digits).length) with large | small
        · rcases lt_or_ge (shortest significand exponent).exponent 0 with part | whole
          · exact exists_spells_between negative some large part
          · exact exists_spells_above negative some large whole
        · exact exists_spells_below negative small
      · rw [String.toList_append, sign]
        exact exists_spells_scientific negative some
    have someSpelled : 0 < spelling.digits := by
      rcases Nat.eq_zero_or_pos spelling.digits with none | more
      · have value := spells.value
        rw [none, Nat.cast_zero, zero_mul] at value
        have positiveValue : (0 : ℚ) < (shortest significand exponent).digits *
            10 ^ (shortest significand exponent).exponent :=
          mul_pos (by exact_mod_cast some) (zpow_pos (by norm_num) _)
        exact absurd value positiveValue.ne
      · exact more
    refine ⟨spelling, _, spells, written, ?_⟩
    rw [signed, Binary64.ofDecimal_congr someSpelled some spells.value, reads]

end Spelled

end TapeLab.Number
