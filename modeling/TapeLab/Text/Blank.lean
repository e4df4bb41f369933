/-!
# Blank characters

The white space that machine sources, command lines and prompt answers may put
around a word.  Every reader of this library trims and splits by the one test
`isBlank`, so two stages can never disagree about where a field begins.
-/

namespace TapeLab.Text

/-- White space: the line and tab controls, the four information separators,
the space, the next-line control, and the Unicode spaces and separators. -/
def isBlank (c : Char) : Bool :=
  let code := c.toNat
  (9 ≤ code && code ≤ 13) || (28 ≤ code && code ≤ 32) || code == 0x85 || code == 0xA0 ||
    code == 0x1680 || (0x2000 ≤ code && code ≤ 0x200A) || code == 0x2028 || code == 0x2029 ||
    code == 0x202F || code == 0x205F || code == 0x3000

/-- Nothing but blanks. -/
def AllBlank (text : List Char) : Prop :=
  ∀ c ∈ text, isBlank c = true

/-- A text that is another with blanks around it. -/
def Padded (core text : List Char) : Prop :=
  ∃ before after, AllBlank before ∧ AllBlank after ∧ text = before ++ core ++ after

/-- The text without its leading blanks. -/
def trimStart (text : List Char) : List Char :=
  text.dropWhile isBlank

/-- The text without its trailing blanks. -/
def trimEnd (text : List Char) : List Char :=
  (text.reverse.dropWhile isBlank).reverse

/-- The text without the blanks around it. -/
def trim (text : List Char) : List Char :=
  trimEnd (trimStart text)

/-- The text without any blank at all. -/
def removeBlanks (text : List Char) : List Char :=
  text.filter fun c => !isBlank c

/-- `trim` on strings. -/
def trimmed (text : String) : String :=
  String.ofList (trim text.toList)

/-- Every character that the core library calls white space is blank. -/
theorem isBlank_of_isWhitespace {c : Char} (white : c.isWhitespace = true) :
    isBlank c = true := by
  simp only [Char.isWhitespace, Bool.or_eq_true, decide_eq_true_eq] at white
  rcases white with ((rfl | rfl) | rfl) | rfl <;> decide

/-- Trimming leaves nothing exactly when there was nothing but blanks. -/
theorem trimStart_eq_nil_iff {text : List Char} :
    trimStart text = [] ↔ ∀ c ∈ text, isBlank c = true := by
  induction text with
  | nil => simp [trimStart]
  | cons c rest inductionHypothesis =>
    by_cases blank : isBlank c = true
    · have cut : trimStart (c :: rest) = trimStart rest := by simp [trimStart, blank]
      rw [cut, inductionHypothesis]
      simp [blank]
    · simp [trimStart, blank]

end TapeLab.Text
