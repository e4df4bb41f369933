import TapeLab.Classic.RuleGrammar
import TapeLab.Classic.Source

/-!
# Rules that survive printing

Which rules can be read back from their printed lines, said field by field and without the
printer.  The printer puts a space in front of every field but the first, so a hash that
begins a field or follows a blank in it opens a comment, unless the field ends there.
-/

namespace TapeLab.Classic

open TapeLab.Text

/-- A hash that begins a text or follows a blank in it is the last character. -/
def HashesLast (text : List Char) : Prop :=
  ∀ before after, text = before ++ '#' :: after → (∀ c ∈ before.getLast?, isBlank c = true) →
    after = []

/-- A text begins with the words of the directive, each letter in any case. -/
def OpensDirective (text : List Char) : Prop :=
  ∃ opening rest, text = opening ++ rest ∧ opening.length = tapeDirective.length ∧
    ∀ pair ∈ tapeDirective.zip opening, matchesLetter pair.1 pair.2 = true

/-- A text that is the same field after it was printed. -/
structure IsPrintable (field : List Char) : Prop extends IsField field where
  unbroken : Unbroken field
  hashesLast : HashesLast field

/-- A rule that is read back from its printed line. -/
structure PrintableRule (rule : Rule) : Prop where
  state : IsPrintable rule.state.toList
  read : IsPrintable rule.read.toList
  next : IsPrintable rule.next.toList
  write : IsPrintable rule.write.toList
  /-- The line is not ignored. -/
  noHash : rule.state.toList.head? ≠ some '#'
  /-- The line does not set the tape. -/
  noDirective : ¬OpensDirective rule.state.toList

/-- A field that begins with a hash and goes on.  It is read where no blank stands before
it, but it is printed after one. -/
def OpensComment (field : List Char) : Prop :=
  ∃ c rest, field = '#' :: c :: rest

end TapeLab.Classic
