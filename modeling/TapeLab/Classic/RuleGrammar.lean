import TapeLab.Classic.RuleLine

/-!
# The grammar of rule lines

What a rule line is, said without the reader: five fields around one arrow, or four
fields without one, each with blanks around it.  A field is what no comma, no arrow
and no blank at its ends could be cut from.
-/

namespace TapeLab.Classic

open TapeLab.Text

/-- A text that can stand as a field. -/
structure IsField (field : List Char) : Prop where
  nonempty : field ≠ []
  trimmed : trim field = field
  noComma : ',' ∉ field
  noArrow : ∀ before after, field ≠ before ++ '-' :: '>' :: after

/-- The part of a line that names a move: its letter, in either case. -/
def NamesMove (move : Move) (text : List Char) : Prop :=
  ∃ letter, Move.ofLetter? letter = some move ∧ Padded [letter] text

/-- The lines that declare a rule.  In the short form the machine stays in its state. -/
inductive IsRuleLine : List Char → Rule → Prop where
  | arrow {state read next write stateText readText nextText writeText moveText : List Char}
      {move : Move}
      (stateField : IsField state) (readField : IsField read)
      (nextField : IsField next) (writeField : IsField write)
      (statePadded : Padded state stateText) (readPadded : Padded read readText)
      (nextPadded : Padded next nextText) (writePadded : Padded write writeText)
      (movePadded : NamesMove move moveText) :
      IsRuleLine
        (stateText ++ ',' :: readText ++ '-' :: '>' :: nextText ++ ',' :: writeText ++
          ',' :: moveText)
        { state := String.ofList state, read := String.ofList read, next := String.ofList next,
          write := String.ofList write, move }
  | short {state read write stateText readText writeText moveText : List Char} {move : Move}
      (stateField : IsField state) (readField : IsField read) (writeField : IsField write)
      (statePadded : Padded state stateText) (readPadded : Padded read readText)
      (writePadded : Padded write writeText) (movePadded : NamesMove move moveText) :
      IsRuleLine
        (stateText ++ ',' :: readText ++ ',' :: writeText ++ ',' :: moveText)
        { state := String.ofList state, read := String.ofList read, next := String.ofList state,
          write := String.ofList write, move }

end TapeLab.Classic
