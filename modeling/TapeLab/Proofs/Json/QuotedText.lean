import TapeLab.Json.Reader
import TapeLab.Json.Writer

/-!
# Quoted texts

A text in quotes is read back as it was written, whatever characters it has and whatever
follows it.  Every character is written in a form that tells where it ends, so the reader
takes back one character at a time (`quotedText?_writtenChar`).
-/

namespace TapeLab.Json

open TapeLab.Text

/-- A hexadecimal digit is read back. -/
theorem hexValue?_digitChar {digit : Nat} (small : digit < 16) :
    hexValue? digit.digitChar = some digit := by
  have all : ∀ value : Fin 16, hexValue? value.val.digitChar = some value.val := by decide
  exact all ⟨digit, small⟩

/-- The last digit of a number, and those before it. -/
theorem toDigits_sixteen {number : Nat} (large : 16 ≤ number) :
    Nat.toDigits 16 number = Nat.toDigits 16 (number / 16) ++ [(number % 16).digitChar] :=
  Nat.toDigits_of_base_le (by omega) large

/-- The four digits of a code unit. -/
theorem hexPadded_four {unit : Nat} (small : unit < 65536) :
    hexPadded 4 unit =
      [(unit / 4096).digitChar, (unit / 256 % 16).digitChar, (unit / 16 % 16).digitChar,
        (unit % 16).digitChar] := by
  have quarter : unit / 16 / 16 = unit / 256 := by omega
  have eighth : unit / 256 / 16 = unit / 4096 := by omega
  have zero : Nat.digitChar 0 = '0' := rfl
  rcases Nat.lt_or_ge unit 16 with one | two
  · have upper : unit / 4096 = 0 ∧ unit / 256 = 0 ∧ unit / 16 = 0 := by omega
    simp [hexPadded, Nat.toDigits_of_lt_base one, upper, zero, Nat.mod_eq_of_lt one,
      List.replicate]
  · rcases Nat.lt_or_ge unit 256 with belowThree | three
    · have upper : unit / 4096 = 0 ∧ unit / 256 = 0 ∧ unit / 16 < 16 := by omega
      simp [hexPadded, toDigits_sixteen two, Nat.toDigits_of_lt_base upper.2.2, upper, zero,
        Nat.mod_eq_of_lt upper.2.2, List.replicate]
    · have second : 16 ≤ unit / 16 := by omega
      rcases Nat.lt_or_ge unit 4096 with belowFour | four
      · have upper : unit / 4096 = 0 ∧ unit / 256 < 16 := by omega
        simp [hexPadded, toDigits_sixteen two, toDigits_sixteen second, quarter,
          Nat.toDigits_of_lt_base upper.2, upper, zero, Nat.mod_eq_of_lt upper.2]
      · have third : 16 ≤ unit / 256 := by omega
        have upper : unit / 4096 < 16 := by omega
        simp [hexPadded, toDigits_sixteen two, toDigits_sixteen second, quarter,
          toDigits_sixteen third, eighth, Nat.toDigits_of_lt_base upper]

/-- A code unit is read back from its digits. -/
theorem codeUnit?_hexPadded {unit : Nat} (small : unit < 65536) (rest : List Char) :
    codeUnit? (hexPadded 4 unit ++ rest) = some (unit, rest) := by
  have first : unit / 4096 < 16 := by omega
  have digit : ∀ number : Nat, number % 16 < 16 := fun number => Nat.mod_lt _ (by omega)
  have whole : 256 * (16 * (unit / 4096) + unit / 256 % 16) +
      (16 * (unit / 16 % 16) + unit % 16) = unit := by omega
  simp [hexPadded_four small, codeUnit?, hexValue?_digitChar first,
    hexValue?_digitChar (digit _), whole]

/-- No character is half of a pair of code units. -/
theorem not_surrogate (c : Char) : ¬(0xD800 ≤ c.toNat ∧ c.toNat ≤ 0xDFFF) := by
  have valid := c.valid
  simp only [UInt32.isValidChar, Nat.isValidChar] at valid
  have same : c.val.toNat = c.toNat := rfl
  omega

/-- A character of the basic plane is read back from its number. -/
theorem numberedEscape?_basic {c : Char} (small : c.toNat ≤ 0xFFFF) (rest : List Char) :
    numberedEscape? (hexPadded 4 c.toNat ++ rest) = some (c, rest) := by
  have whole := not_surrogate c
  have notHigh : isHighUnit c.toNat = false := by
    simp only [isHighUnit, Bool.and_eq_false_iff, decide_eq_false_iff_not]
    omega
  have notLow : isLowUnit c.toNat = false := by
    simp only [isLowUnit, Bool.and_eq_false_iff, decide_eq_false_iff_not]
    omega
  simp [numberedEscape?, codeUnit?_hexPadded (Nat.lt_succ_of_le small), notHigh, loneUnit,
    notLow]

/-- Two code units that make a pair are read as the character of the pair. -/
theorem numberedEscape?_pair {high low : Nat} (begins : isHighUnit high = true)
    (ends : isLowUnit low = true) (rest : List Char) :
    numberedEscape? (hexPadded 4 high ++ (escapedUnit low ++ rest)) =
      some (pairedUnits high low, rest) := by
  simp only [isHighUnit, Bool.and_eq_true, decide_eq_true_eq] at begins
  simp only [isLowUnit, Bool.and_eq_true, decide_eq_true_eq] at ends
  have highSmall : high < 65536 := by omega
  have lowSmall : low < 65536 := by omega
  have highRead := codeUnit?_hexPadded highSmall (escapedUnit low ++ rest)
  have lowRead : escapedUnit? (escapedUnit low ++ rest) = some (low, rest) := by
    simp [escapedUnit, escapedUnit?, codeUnit?_hexPadded lowSmall]
  have isHigh : isHighUnit high = true := by
    simp only [isHighUnit, Bool.and_eq_true, decide_eq_true_eq]
    exact begins
  have isLow : isLowUnit low = true := by
    simp only [isLowUnit, Bool.and_eq_true, decide_eq_true_eq]
    exact ends
  simp [numberedEscape?, highRead, isHigh, lowRead, isLow]

/-- A character beyond the basic plane is that of its pair of code units. -/
theorem escapedPair_spec {c : Char} (large : 0xFFFF < c.toNat) :
    ∃ high low, escapedPair c.toNat = escapedUnit high ++ escapedUnit low ∧
      isHighUnit high = true ∧ isLowUnit low = true ∧ pairedUnits high low = c := by
  have bound : c.toNat < 0x110000 := by
    have valid := c.valid
    simp only [UInt32.isValidChar, Nat.isValidChar] at valid
    have same : c.val.toNat = c.toNat := rfl
    omega
  refine ⟨_, _, rfl, ?_, ?_, ?_⟩
  · simp only [isHighUnit, Bool.and_eq_true, decide_eq_true_eq]
    omega
  · simp only [isLowUnit, Bool.and_eq_true, decide_eq_true_eq]
    omega
  · have number : 0x10000 + 0x400 * (0xD800 + (c.toNat - 0x10000) / 0x400 - 0xD800) +
        (0xDC00 + (c.toNat - 0x10000) % 0x400 - 0xDC00) = c.toNat := by omega
    rw [pairedUnits, number, Char.ofNat_toNat]

/-- The reader takes back a character that was written by number. -/
theorem quotedText?_escape {escape : List Char} {c : Char} {rest : List Char}
    (read : numberedEscape? escape = some (c, rest)) (fuel : Nat) :
    quotedText? (fuel + 1) ('\\' :: 'u' :: escape) =
      (quotedText? fuel rest).map fun parts => (c :: parts.1, parts.2) := by
  simp [quotedText?, read]

/-- The reader takes back a character that was written by letter. -/
theorem quotedText?_letter {letter c : Char} (read : letteredEscape? letter = some c)
    (fuel : Nat) (rest : List Char) :
    quotedText? (fuel + 1) ('\\' :: letter :: rest) =
      (quotedText? fuel rest).map fun parts => (c :: parts.1, parts.2) := by
  have notNumbered : (letter == 'u') = false := by
    rw [beq_eq_false_iff_ne]
    rintro rfl
    cases read
  simp [quotedText?, read, notNumbered]

/-- The letters that stand for a character behind a backslash. -/
def escapeLetters : List Char :=
  ['"', '\\', 'n', 'r', 't', 'b', 'f']

/-- The ways in which a character can be written between quotes. -/
inductive Spelled (c : Char) : List Char → Prop where
  /-- Behind a backslash, as a letter that stands for it. -/
  | letter {letter : Char} (known : letter ∈ escapeLetters)
      (meant : letteredEscape? letter = some c) : Spelled c ['\\', letter]
  /-- As it is. -/
  | plain (least : 0x20 ≤ c.toNat) (most : c.toNat ≤ 0x7E) (noQuote : c ≠ '"')
      (noSlash : c ≠ '\\') : Spelled c [c]
  /-- By its number. -/
  | number (small : c.toNat ≤ 0xFFFF) : Spelled c (escapedUnit c.toNat)
  /-- By the numbers of its pair of code units. -/
  | pair {high low : Nat} (begins : isHighUnit high = true) (ends : isLowUnit low = true)
      (same : pairedUnits high low = c) : Spelled c (escapedUnit high ++ escapedUnit low)

/-- Every character is written in one of these ways. -/
theorem spelled_writtenChar (c : Char) : Spelled c (writtenChar c) := by
  by_cases special : c ∈ ['"', '\\', '\n', '\r', '\t', '\x08', '\x0c']
  · simp only [List.mem_cons, List.not_mem_nil, or_false] at special
    rcases special with rfl | rfl | rfl | rfl | rfl | rfl | rfl
    all_goals exact .letter (by decide) rfl
  · simp only [List.mem_cons, List.not_mem_nil, or_false, not_or] at special
    obtain ⟨noQuote, noSlash, noLetter⟩ := special
    simp only [writtenChar, beq_false_of_ne noQuote, beq_false_of_ne noSlash, noLetter,
      beq_iff_eq, Bool.or_self, Bool.false_eq_true, if_false]
    split
    · next shown =>
      simp only [Bool.and_eq_true, decide_eq_true_eq] at shown
      exact .plain shown.1 shown.2 noQuote noSlash
    split
    · next small => exact .number small
    · next large =>
      obtain ⟨high, low, pair, begins, ends, same⟩ :=
        escapedPair_spec (Nat.lt_of_not_le large)
      rw [pair]
      exact .pair begins ends same

/-- The reader takes back one character at a time. -/
theorem quotedText?_writtenChar (fuel : Nat) (c : Char) (rest : List Char) :
    quotedText? (fuel + 1) (writtenChar c ++ rest) =
      (quotedText? fuel rest).map fun parts => (c :: parts.1, parts.2) := by
  have spelled := spelled_writtenChar c
  generalize writtenChar c = written at spelled
  cases spelled with
  | letter known meant => exact quotedText?_letter meant fuel rest
  | plain least most noQuote noSlash =>
      have noControl : ¬c.toNat < 0x20 := Nat.not_lt.mpr least
      simp [quotedText?, noQuote, noSlash, noControl]
  | number small => exact quotedText?_escape (numberedEscape?_basic small rest) fuel
  | pair begins ends same =>
      have read := quotedText?_escape (numberedEscape?_pair begins ends rest) fuel
      rw [same] at read
      rw [List.append_assoc]
      exact read

/-- A text is read back up to its closing quote. -/
theorem quotedText?_flatMap {text : List Char} {fuel : Nat} (enough : text.length < fuel)
    (rest : List Char) :
    quotedText? fuel (text.flatMap writtenChar ++ '"' :: rest) = some (text, rest) := by
  induction text generalizing fuel with
  | nil =>
      obtain ⟨less, rfl⟩ := Nat.exists_eq_succ_of_ne_zero (Nat.ne_of_gt enough)
      simp [quotedText?]
  | cons c others inductionHypothesis =>
      obtain ⟨less, rfl⟩ := Nat.exists_eq_succ_of_ne_zero (Nat.ne_zero_of_lt enough)
      have shorter : others.length < less := by simpa using enough
      have later := inductionHypothesis shorter
      rw [List.flatMap_cons, List.append_assoc, quotedText?_writtenChar, later]
      rfl

/-- Every character is written with one character at least. -/
theorem writtenChar_ne_nil (c : Char) : writtenChar c ≠ [] := by
  intro empty
  have read := quotedText?_writtenChar 1 c ['"', '"']
  rw [empty] at read
  simp [quotedText?] at read

/-- A text is no longer than what is written for it between quotes. -/
theorem length_le_flatMap (text : List Char) :
    text.length ≤ (text.flatMap writtenChar).length := by
  induction text with
  | nil => exact Nat.le_refl _
  | cons c others inductionHypothesis =>
      have some := List.length_pos_iff.mpr (writtenChar_ne_nil c)
      simp only [List.length_cons, List.flatMap_cons, List.length_append]
      omega

end TapeLab.Json
