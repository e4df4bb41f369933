import TapeLab.Machine.Basic
import TapeLab.Structured.Comment

/-!
# Tokens of structured lines

A line is cut into marks, quoted symbols and words.  A quoted symbol goes on to the
next quote of its own kind; a word ends at a blank, a quote or a mark.  The only
text that cannot be cut is one with a quote that nothing closes.
-/

namespace TapeLab.Structured

open TapeLab.Text

/-- The marks that give a line its shape. -/
inductive Mark where
  | openBrace
  | closeBrace
  | openBracket
  | closeBracket
  | comma
  | colon
  deriving DecidableEq, Repr

/-- The character of a mark. -/
def Mark.char : Mark → Char
  | .openBrace => '\x7b'
  | .closeBrace => '\x7d'
  | .openBracket => '['
  | .closeBracket => ']'
  | .comma => ','
  | .colon => ':'

/-- Every mark. -/
def Mark.all : List Mark :=
  [.openBrace, .closeBrace, .openBracket, .closeBracket, .comma, .colon]

/-- The mark that a character is. -/
def Mark.ofChar? (c : Char) : Option Mark :=
  Mark.all.find? fun mark => mark.char == c

/-- A mark is read back from its own character. -/
theorem Mark.ofChar?_char (mark : Mark) : Mark.ofChar? mark.char = some mark := by
  cases mark <;> decide

/-- A piece of a structured line. -/
inductive Token where
  | word (text : String)
  | quoted (text : String)
  | mark (mark : Mark)
  deriving DecidableEq, Repr

namespace Token

/-- The text that a token stands for. -/
def text : Token → String
  | .word text => text
  | .quoted text => text
  | .mark sign => String.singleton sign.char

/-- The symbol that a token names; a mark names none. -/
def symbol? : Token → Option Symbol
  | .word text => some text
  | .quoted text => some text
  | .mark _ => none

end Token

/-- A character that can belong to a word. -/
def isWordChar (c : Char) : Bool :=
  !isBlank c && !isQuote c && (Mark.ofChar? c).isNone

/-- What stands before the next occurrence of a character, and what stands after. -/
def splitAtChar? (stop : Char) : List Char → Option (List Char × List Char)
  | [] => none
  | c :: rest =>
    if c == stop then some ([], rest)
    else (splitAtChar? stop rest).map fun parts => (c :: parts.1, parts.2)

/-- What follows an occurrence is shorter than the text. -/
theorem length_of_splitAtChar? {stop : Char} {text before after : List Char}
    (found : splitAtChar? stop text = some (before, after)) : after.length < text.length := by
  induction text generalizing before with
  | nil => simp [splitAtChar?] at found
  | cons c rest inductionHypothesis =>
    unfold splitAtChar? at found
    split at found
    · cases found
      simp
    · obtain ⟨parts, partsFound, same⟩ := Option.map_eq_some_iff.1 found
      cases same
      have shorter := inductionHypothesis partsFound
      simp only [List.length_cons]
      omega

/-- Dropping from the front makes no text longer. -/
theorem length_dropWhile_le (unwanted : Char → Bool) (text : List Char) :
    (text.dropWhile unwanted).length ≤ text.length :=
  (List.dropWhile_sublist unwanted).length_le

/-- The tokens of a text, or nothing if a quote is never closed. -/
def tokens? : List Char → Option (List Token)
  | [] => some []
  | c :: rest =>
    if isBlank c then tokens? rest
    else
      match Mark.ofChar? c with
      | some mark => (tokens? rest).map (.mark mark :: ·)
      | none =>
        if isQuote c then
          match _found : splitAtChar? c rest with
          | none => none
          | some (body, after) => (tokens? after).map (.quoted (String.ofList body) :: ·)
        else
          (tokens? (rest.dropWhile isWordChar)).map
            (.word (String.ofList (c :: rest.takeWhile isWordChar)) :: ·)
termination_by text => text.length
decreasing_by
  · simp
  · simp
  · have shorter := length_of_splitAtChar? _found
    simp only [List.length_cons]
    omega
  · have shorter := length_dropWhile_le isWordChar rest
    simp only [List.length_cons]
    omega

end TapeLab.Structured
