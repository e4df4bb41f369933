import TapeLab.Proofs.Json.QuotedText

/-!
# Plain text

Whatever is written for a value is plain: every character of it is a printable character
of ASCII, apart from the line feeds that the layout itself sets.  So a compact value is
one line, and reading a file as text changes nothing in a value that stands there.
-/

namespace TapeLab

/-- A printable character of ASCII. -/
def IsPlain (c : Char) : Prop :=
  0x20 ≤ c.toNat ∧ c.toNat ≤ 0x7E

instance (c : Char) : Decidable (IsPlain c) :=
  inferInstanceAs (Decidable (_ ∧ _))

/-- Texts can be checked for plainness. -/
theorem isPlain_of_all {text : List Char} (plain : text.all (fun c => decide (IsPlain c)) = true)
    {c : Char} (member : c ∈ text) : IsPlain c :=
  of_decide_eq_true (List.all_eq_true.mp plain c member)

/-- A decimal digit is plain. -/
theorem isPlain_of_isDigit {c : Char} (digit : c.isDigit = true) : IsPlain c := by
  simp only [Char.isDigit, Bool.and_eq_true, decide_eq_true_eq] at digit
  obtain ⟨least, most⟩ := digit
  have least : 48 ≤ c.val.toNat := UInt32.le_iff_toNat_le.mp least
  have most : c.val.toNat ≤ 57 := UInt32.le_iff_toNat_le.mp most
  have same : c.val.toNat = c.toNat := rfl
  constructor <;> omega

/-- The digits of a number are plain. -/
theorem isPlain_of_mem_toDigits {number : Nat} {c : Char}
    (member : c ∈ Nat.toDigits 10 number) : IsPlain c :=
  isPlain_of_isDigit (Nat.isDigit_of_mem_toDigits (by omega) (by omega) member)

namespace Number

/-- A number in positional notation is plain if its digits are. -/
theorem isPlain_of_mem_positional {digits : List Char} (plain : ∀ c ∈ digits, IsPlain c)
    (places : Int) {c : Char} (member : c ∈ (positional digits places).toList) :
    IsPlain c := by
  have zero : ∀ count, ∀ c ∈ (zeros count).toList, IsPlain c := by
    intro count c member
    simp only [zeros, String.toList_ofList, List.mem_replicate] at member
    rw [member.2]
    decide
  simp only [positional] at member
  split at member
  · simp only [String.toList_append, String.toList_ofList, List.mem_append] at member
    rcases member with (point | fill) | digit
    · exact isPlain_of_all (by decide) point
    · exact zero _ _ fill
    · exact plain _ digit
  · split at member
    · simp only [String.toList_append, String.toList_ofList, List.mem_append] at member
      rcases member with (digit | fill) | point
      · exact plain _ digit
      · exact zero _ _ fill
      · exact isPlain_of_all (by decide) point
    · simp only [String.toList_append, String.toList_ofList, List.mem_append] at member
      rcases member with (digit | point) | digit
      · exact plain _ (List.mem_of_mem_take digit)
      · exact isPlain_of_all (by decide) point
      · exact plain _ (List.mem_of_mem_drop digit)

/-- A number in scientific notation is plain if its digits are. -/
theorem isPlain_of_mem_scientific {digits : List Char} (plain : ∀ c ∈ digits, IsPlain c)
    (exponent : Int) {c : Char} (member : c ∈ (scientific digits exponent).toList) :
    IsPlain c := by
  simp only [scientific, String.toList_append, List.mem_append, String.toList_ofList,
    List.mem_replicate] at member
  rcases member with (mantissa | mark) | ⟨-, rfl⟩ | digit
  · split at mantissa
    · simp only [String.toList_ofList, List.mem_cons] at mantissa
      rcases mantissa with rfl | rfl | later
      · exact plain _ List.mem_cons_self
      · decide
      · exact plain _ (List.mem_cons_of_mem _ (List.mem_cons.mpr later))
    · rw [String.toList_ofList] at mantissa
      exact plain _ mantissa
  · split at mark
    · exact isPlain_of_all (by decide) mark
    · exact isPlain_of_all (by decide) mark
  · decide
  · exact isPlain_of_mem_toDigits digit

/-- A stored number is plain. -/
theorem isPlain_of_mem_text (number : Binary64) {c : Char}
    (member : c ∈ (number.text storedLayout).toList) : IsPlain c := by
  have signed : ∀ (negative : Bool), ∀ c ∈ (if negative then "-" else "").toList, IsPlain c := by
    intro negative c member
    refine isPlain_of_all ?_ member
    cases negative <;> decide
  cases number with
  | nan =>
      exact isPlain_of_all (by decide) member
  | infinity negative =>
      refine isPlain_of_all ?_ member
      cases negative <;> decide
  | finite negative significand exponent =>
      simp only [Binary64.text] at member
      have digits : ∀ c ∈ Nat.toDigits 10 (shortest significand exponent).digits, IsPlain c :=
        fun c member => isPlain_of_mem_toDigits member
      split at member
      · rw [String.toList_append, List.mem_append] at member
        rcases member with sign | zero
        · exact signed negative _ sign
        · exact isPlain_of_all (by decide) zero
      · split at member
        · rw [String.toList_append, List.mem_append] at member
          rcases member with sign | shown
          · exact signed negative _ sign
          · exact isPlain_of_mem_positional digits _ shown
        · rw [String.toList_append, List.mem_append] at member
          rcases member with sign | shown
          · exact signed negative _ sign
          · exact isPlain_of_mem_scientific digits _ shown

end Number

namespace Json

open Number

/-- The digits of a code unit are plain. -/
theorem isPlain_of_mem_escapedUnit {unit : Nat} (small : unit < 65536) {c : Char}
    (member : c ∈ escapedUnit unit) : IsPlain c := by
  have digit : ∀ value : Fin 16, IsPlain value.val.digitChar := by decide
  have digits : ∀ number, number % 16 < 16 := fun number => Nat.mod_lt _ (by omega)
  simp only [escapedUnit, hexPadded_four small, List.mem_cons, List.not_mem_nil,
    or_false] at member
  rcases member with rfl | rfl | rfl | rfl | rfl | rfl
  · decide
  · decide
  · exact digit ⟨unit / 4096, by omega⟩
  · exact digit ⟨unit / 256 % 16, digits _⟩
  · exact digit ⟨unit / 16 % 16, digits _⟩
  · exact digit ⟨unit % 16, digits _⟩

/-- Every character is written plainly. -/
theorem isPlain_of_mem_writtenChar {c written : Char} (member : written ∈ writtenChar c) :
    IsPlain written := by
  have spelled := spelled_writtenChar c
  generalize writtenChar c = text at spelled member
  cases spelled with
  | letter known meant =>
      simp only [List.mem_cons, List.not_mem_nil, or_false] at member
      rcases member with rfl | rfl
      · decide
      · exact isPlain_of_all (by decide) known
  | plain least most noQuote noSlash =>
      rw [List.mem_singleton.mp member]
      exact ⟨least, most⟩
  | number small => exact isPlain_of_mem_escapedUnit (Nat.lt_succ_of_le small) member
  | pair begins ends same =>
      simp only [isHighUnit, isLowUnit, Bool.and_eq_true, decide_eq_true_eq] at begins ends
      rcases List.mem_append.mp member with first | second
      · exact isPlain_of_mem_escapedUnit (by omega) first
      · exact isPlain_of_mem_escapedUnit (by omega) second

/-- A text is written plainly. -/
theorem isPlain_of_mem_writtenText {text : String} {c : Char}
    (member : c ∈ writtenText text) : IsPlain c := by
  simp only [writtenText, List.mem_append, List.mem_cons, List.mem_flatMap, List.not_mem_nil,
    or_false] at member
  rcases member with (rfl | ⟨_, _, inside⟩) | rfl
  · decide
  · exact isPlain_of_mem_writtenChar inside
  · decide

/-- A whole number is written plainly. -/
theorem isPlain_of_mem_writtenInteger {value : Int} {c : Char}
    (member : c ∈ writtenInteger value) : IsPlain c := by
  simp only [writtenInteger] at member
  split at member
  · rcases List.mem_cons.mp member with rfl | digit
    · decide
    · exact isPlain_of_mem_toDigits digit
  · exact isPlain_of_mem_toDigits member

section Written

variable {layout : Layout} {allowed : Char → Prop}

/-- The characters that a layout itself sets are allowed. -/
structure Layout.Sets (layout : Layout) (allowed : Char → Prop) : Prop where
  plain : ∀ c, IsPlain c → allowed c
  edge : ∀ level, ∀ c ∈ layout.edge level, allowed c
  separator : ∀ level, ∀ c ∈ layout.separator level, allowed c

mutual

/-- Whatever is written for a value is plain or set by the layout. -/
theorem allowed_of_mem_written (sets : layout.Sets allowed) (level : Nat) (value : Value)
    (c : Char) (member : c ∈ written layout level value) : allowed c := by
  cases value with
  | null =>
      rw [written] at member
      exact sets.plain c (isPlain_of_all (by decide) member)
  | bool value =>
      rw [written] at member
      refine sets.plain c (isPlain_of_all ?_ member)
      cases value <;> decide
  | integer value => exact sets.plain c (isPlain_of_mem_writtenInteger member)
  | float value => exact sets.plain c (isPlain_of_mem_text value member)
  | text value => exact sets.plain c (isPlain_of_mem_writtenText member)
  | list items =>
      cases items with
      | nil =>
          rw [written] at member
          exact sets.plain c (isPlain_of_all (by decide) member)
      | cons item rest =>
          simp only [written, List.mem_append, List.mem_cons, List.not_mem_nil,
            or_false] at member
          rcases member with ((((rfl | edge) | first) | others) | edge) | rfl
          · exact sets.plain _ (by decide)
          · exact sets.edge _ _ edge
          · exact allowed_of_mem_written sets (level + 1) item c first
          · exact allowed_of_mem_writtenItems sets (level + 1) rest c others
          · exact sets.edge _ _ edge
          · exact sets.plain _ (by decide)
  | record fields =>
      cases fields with
      | nil =>
          rw [written] at member
          exact sets.plain c (isPlain_of_all (by decide) member)
      | cons field rest =>
          obtain ⟨key, value⟩ := field
          simp only [written, List.mem_append, List.mem_cons, List.not_mem_nil,
            or_false] at member
          rcases member with ((((((rfl | edge) | name) | rfl | rfl) | first) | others) | edge) |
            rfl
          · exact sets.plain _ (by decide)
          · exact sets.edge _ _ edge
          · exact sets.plain _ (isPlain_of_mem_writtenText name)
          · exact sets.plain _ (by decide)
          · exact sets.plain _ (by decide)
          · exact allowed_of_mem_written sets (level + 1) value c first
          · exact allowed_of_mem_writtenFields sets (level + 1) rest c others
          · exact sets.edge _ _ edge
          · exact sets.plain _ (by decide)

theorem allowed_of_mem_writtenItems (sets : layout.Sets allowed) (level : Nat)
    (items : List Value) (c : Char) (member : c ∈ writtenItems layout level items) :
    allowed c := by
  cases items with
  | nil => cases member
  | cons item rest =>
      simp only [writtenItems, List.mem_append] at member
      rcases member with (separator | first) | others
      · exact sets.separator _ _ separator
      · exact allowed_of_mem_written sets level item c first
      · exact allowed_of_mem_writtenItems sets level rest c others

theorem allowed_of_mem_writtenFields (sets : layout.Sets allowed) (level : Nat)
    (fields : List (String × Value)) (c : Char)
    (member : c ∈ writtenFields layout level fields) : allowed c := by
  cases fields with
  | nil => cases member
  | cons field rest =>
      obtain ⟨key, value⟩ := field
      simp only [writtenFields, List.mem_append, List.mem_cons, List.not_mem_nil,
        or_false] at member
      rcases member with (((separator | name) | rfl | rfl) | first) | others
      · exact sets.separator _ _ separator
      · exact sets.plain _ (isPlain_of_mem_writtenText name)
      · exact sets.plain _ (by decide)
      · exact sets.plain _ (by decide)
      · exact allowed_of_mem_written sets level value c first
      · exact allowed_of_mem_writtenFields sets level rest c others

end

end Written

/-- A compact value is plain. -/
theorem isPlain_of_mem_compact (value : Value) {c : Char}
    (member : c ∈ value.compact.toList) : IsPlain c := by
  rw [Value.compact, String.toList_ofList] at member
  have sets : Layout.compact.Sets IsPlain :=
    { plain := fun _ plain => plain
      edge := fun _ _ member => by cases member
      separator := by
        intro level c member
        have small : c ∈ [',', ' '] := member
        exact isPlain_of_all (by decide) small }
  exact allowed_of_mem_written sets 0 value c member

/-- An indented value is plain but for its line feeds. -/
theorem isPlain_or_feed_of_mem_indented (value : Value) {c : Char}
    (member : c ∈ value.indented.toList) : IsPlain c ∨ c = '\n' := by
  rw [Value.indented, String.toList_ofList] at member
  have indent : ∀ level, ∀ c ∈ indentBreak level, IsPlain c ∨ c = '\n' := by
    intro level c member
    rcases List.mem_cons.mp member with rfl | space
    · exact Or.inr rfl
    · rw [(List.mem_replicate.mp space).2]
      exact Or.inl (by decide)
  have sets : Layout.indented.Sets fun c => IsPlain c ∨ c = '\n' :=
    { plain := fun _ plain => Or.inl plain
      edge := fun level c member => indent level c member
      separator := by
        intro level c member
        rcases List.mem_cons.mp member with rfl | later
        · exact Or.inl (by decide)
        · exact indent level c later }
  exact allowed_of_mem_written sets 0 value c member

end Json

end TapeLab
