import TapeLab.Classic.Comment
import TapeLab.Classic.RuleLine
import TapeLab.Text.Line

/-!
# Classic sources

A classic source is read line by line, and no line depends on another: it is
ignored, sets the tape, declares a rule, or is a problem.  The machine is what the
readings of its lines add up to; of several tapes the last one counts.
-/

namespace TapeLab.Classic

open TapeLab.Text

/-- What one line of a classic source says. -/
inductive Reading where
  | ignored
  | tape (cells : List Symbol)
  | rule (rule : Rule)
  | problem (problem : Problem)
  deriving DecidableEq, Repr

namespace Reading

/-- The tape that a line sets. -/
def tape? : Reading → Option (List Symbol)
  | .tape cells => some cells
  | _ => none

/-- The rule that a line declares. -/
def rule? : Reading → Option Rule
  | .rule declared => some declared
  | _ => none

/-- The problem that a line is. -/
def problem? : Reading → Option Problem
  | .problem found => some found
  | _ => none

end Reading

/-- A character may stand for a lower-case letter of a directive: in either case,
and a dotted or dotless one may stand for the letter i. -/
def matchesLetter (letter c : Char) : Bool :=
  c.toLower == letter || (letter == 'i' && (c == 'İ' || c == 'ı'))

/-- The text after a directive's words. -/
def afterWords? : List Char → List Char → Option (List Char)
  | [], text => some text
  | _ :: _, [] => none
  | letter :: letters, c :: rest =>
    if matchesLetter letter c then afterWords? letters rest else none

/-- The words of the directive that sets the tape. -/
def tapeDirective : List Char := "initial tape:".toList

/-- The cells that a directive sets, one for each character that is not blank. -/
def tapeCells? (text : List Char) : Option (List Symbol) :=
  match afterWords? tapeDirective text with
  | none => none
  | some rest =>
    if rest.isEmpty then none else some ((removeBlanks rest).map String.singleton)

/-- The reading of a line that has been freed of the blanks around it. -/
def readTrimmed (number : Nat) (line : List Char) : Reading :=
  if line.isEmpty || line.head? == some '#' then .ignored
  else
    let content := stripComment line
    match tapeCells? content with
    | some cells => .tape cells
    | none =>
      match readRule content (some number) with
      | .ok rule => .rule rule
      | .error fault => .problem ⟨number, String.ofList line, fault.message⟩

/-- The reading of a line. -/
def readLine (number : Nat) (line : List Char) : Reading :=
  readTrimmed number (trim line)

/-- The readings of a source's lines, which are numbered from one. -/
def readings (source : String) : List Reading :=
  (numberFrom 1 (lines source.toList)).map fun line => readLine line.1 line.2

/-- The start state of every classic machine. -/
def startState : StateName := "q0"

/-- The tape that a source sets last, or the default one. -/
def tapeOf (readings : List Reading) : List Symbol :=
  match (readings.filterMap Reading.tape?).getLast? with
  | some (first :: others) => first :: others
  | _ => defaultTape

/-- The machine of a classic source. -/
def read (source : String) : Definition :=
  let readings := readings source
  { dialect := .classic
    rules := readings.filterMap Reading.rule?
    tape := tapeOf readings
    start := startState
    blank := defaultBlank
    problems := readings.filterMap Reading.problem? }

end TapeLab.Classic
