import TapeLab.Machine.Basic

/-!
# Tapes as text

The contents of a tape in one line.  The joined text loses every character at its
end that occurs in the blank; `cellText` is the same at the level of cells, where
only whole blank cells are dropped.
-/

namespace TapeLab

/-- A text without the characters of a set at its end. -/
def dropTrailing (unwanted : List Char) (text : List Char) : List Char :=
  (text.reverse.dropWhile unwanted.contains).reverse

/-- The joined cells of a tape, without the blank's characters at the end. -/
def tapeText (tape : List Symbol) (blank : Symbol) : String :=
  String.ofList (dropTrailing blank.toList (tape.flatMap String.toList))

/-- The cells of a tape up to the last one that is not blank. -/
def usedCells (tape : List Symbol) (blank : Symbol) : List Symbol :=
  (tape.reverse.dropWhile (· == blank)).reverse

/-- The joined cells of a tape up to the last one that is not blank. -/
def cellText (tape : List Symbol) (blank : Symbol) : String :=
  String.ofList ((usedCells tape blank).flatMap String.toList)

end TapeLab
