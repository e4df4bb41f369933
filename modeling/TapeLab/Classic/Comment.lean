import TapeLab.Text.Blank

/-!
# Comments in classic sources

A hash opens a comment at the start of a word.  A hash that is itself a field of a
rule does not: a comma or an arrow follows such a one, with blanks before it at
most.
-/

namespace TapeLab.Classic

open TapeLab.Text

/-- The text goes on, after blanks at most, with a comma or an arrow. -/
def endsField (text : List Char) : Bool :=
  match trimStart text with
  | [] => false
  | c :: rest => c == ',' || (c == '-' && rest.head? == some '>')

/-- The text before the first comment; `atWordStart` says whether a word may
begin here. -/
def beforeComment (atWordStart : Bool) : List Char → List Char
  | [] => []
  | c :: rest =>
    if c == '#' && atWordStart && !endsField rest then []
    else c :: beforeComment (isBlank c) rest

/-- A line without its comment and without the blanks around the rest. -/
def stripComment (line : List Char) : List Char :=
  trim (beforeComment true line)

end TapeLab.Classic
