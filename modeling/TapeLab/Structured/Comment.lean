import TapeLab.Text.Blank

/-!
# Comments in structured sources

A hash opens a comment at the start of a word, unless it stands inside quotes.
-/

namespace TapeLab.Structured

open TapeLab.Text

/-- A character that opens and closes a quoted symbol. -/
def isQuote (c : Char) : Bool :=
  c == '\'' || c == '"'

/-- The text before the first comment, if there is one.  `quote` is the quote that
is open, and `atWordStart` says whether a word may begin here. -/
def beforeComment? (quote : Option Char) (atWordStart : Bool) : List Char → Option (List Char)
  | [] => none
  | c :: rest =>
    let goOn := fun quote => (beforeComment? quote (isBlank c) rest).map (c :: ·)
    match quote with
    | some opened => goOn (if c == opened then none else some opened)
    | none =>
      if isQuote c then goOn (some c)
      else if c == '#' && atWordStart then some []
      else goOn none

/-- A line without its comment and the blanks before it; a line that has no
comment stays as it is. -/
def stripComment (line : List Char) : List Char :=
  match beforeComment? none true line with
  | some content => trimEnd content
  | none => line

end TapeLab.Structured
