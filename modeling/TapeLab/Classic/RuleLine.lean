import TapeLab.Machine.Basic

/-!
# Rule lines of the classic notation

A rule is written `state, symbol -> state, symbol, move`, or, when the machine
stays in its state, `state, symbol, symbol, move`.  Blanks around a field do not
belong to it.  A line that is no rule is refused with the first of its faults.
-/

namespace TapeLab.Classic

open TapeLab.Text

/-- Why a line is not a rule. -/
inductive RuleFault where
  | manyArrows
  | arrowShape
  | shorthandShape
  | emptyField
  | unknownMove (word : String)
  deriving DecidableEq, Repr

/-- The wording of a fault. -/
def RuleFault.message : RuleFault → String
  | .manyArrows => "more than one '->'"
  | .arrowShape => "expected '<state>, <symbol> -> <state>, <symbol>, <direction>'"
  | .shorthandShape => "expected '<state>, <symbol>, <symbol>, <direction>'"
  | .emptyField => "empty field"
  | .unknownMove word => "unknown direction '" ++ word ++ "'"

/-- The text before and after the first arrow. -/
def splitArrow? : List Char → Option (List Char × List Char)
  | [] => none
  | c :: rest =>
    if c == '-' && rest.head? == some '>' then some ([], rest.tail)
    else (splitArrow? rest).map fun parts => (c :: parts.1, parts.2)

/-- The fields of a text, which commas separate. -/
def fields (text : List Char) : List (List Char) :=
  (text.splitOn ',').map trim

/-- The rule of five fields. -/
def ruleOfFields (state read next write move : List Char) (line : Option Int) :
    Except RuleFault Rule :=
  if state.isEmpty || read.isEmpty || next.isEmpty || write.isEmpty then .error .emptyField
  else
    match Move.read? (String.ofList move) with
    | none => .error (.unknownMove (String.ofList move))
    | some move =>
      .ok {
        state := String.ofList state
        read := String.ofList read
        next := String.ofList next
        write := String.ofList write
        move
        line }

/-- The rule that a line without comment declares. -/
def readRule (text : List Char) (line : Option Int := none) : Except RuleFault Rule :=
  match splitArrow? text with
  | some (left, right) =>
    if (splitArrow? right).isSome then .error .manyArrows
    else
      match fields left, fields right with
      | [state, read], [next, write, move] => ruleOfFields state read next write move line
      | _, _ => .error .arrowShape
  | none =>
    match fields text with
    | [state, read, write, move] => ruleOfFields state read state write move line
    | _ => .error .shorthandShape

end TapeLab.Classic
