import TapeLab.Structured.Line
import TapeLab.Text.Line

/-!
# Structured sources

A structured source sets the input, the blank and the start state wherever it
likes, and declares transitions in the blocks of its states.  Lines are read in
order, each knowing only which block is open.  What the lines declare is settled
afterwards, when the blank is known: the empty symbol stands for the blank, and of
several declarations for one state and symbol the first is kept.
-/

namespace TapeLab.Structured

open TapeLab.Text

/-- What a setting line sets. -/
inductive Field where
  | input
  | blank
  | start
  deriving DecidableEq, Repr

/-- The words of a setting line. -/
def Field.words : Field → List Char
  | .input => "input".toList
  | .blank => "blank".toList
  | .start => "start state".toList

/-- What follows a text at the front of another. -/
def dropFront? : List Char → List Char → Option (List Char)
  | [], text => some text
  | _ :: _, [] => none
  | c :: front, d :: text => if c == d then dropFront? front text else none

/-- What follows the words of a setting and their colon; blanks may stand between. -/
def settingText? (field : Field) (line : List Char) : Option (List Char) :=
  match dropFront? field.words line with
  | none => none
  | some rest =>
    match trimStart rest with
    | [] => none
    | c :: value => if c == ':' then some value else none

/-- The setting that a line is, with the text after its colon. -/
def setting? (line : List Char) : Option (Field × List Char) :=
  [Field.input, .blank, .start].findSome? fun field =>
    (settingText? field line).map fun value => (field, value)

/-- What one line of a structured source says. -/
inductive Reading where
  | ignored
  | setting (field : Field) (value : String)
  | header (state : StateName)
  | transition (state : StateName) (symbols : List Symbol) (action : Action)
  | faulty (fault : LineFault)
  deriving DecidableEq, Repr

/-- The line that announces the table, which needs no announcing. -/
def tableMarker : List Char := "table:".toList

/-- The reading of a table line in the block of a state, if one is open. -/
def readBlockLine (current : Option StateName) (content : List Char) : Reading :=
  match readTableLine content current with
  | .error fault => .faulty fault
  | .ok (.header state) => .header state
  | .ok (.transition symbols action) =>
    match current with
    | some state => .transition state symbols action
    | none => .faulty .outsideBlock

/-- The reading of a line without comment in the block of a state, if one is open. -/
def readContent (current : Option StateName) (content : List Char) : Reading :=
  if content.isEmpty || content == tableMarker then .ignored
  else
    match setting? content with
    | some (field, text) =>
      match singleValue text with
      | .ok value => .setting field value
      | .error fault => .faulty fault
    | none => readBlockLine current content

/-- A line of a source with its number, its text and its reading. -/
structure SourceLine where
  number : Nat
  text : String
  reading : Reading
  deriving DecidableEq, Repr

/-- The block that is open after a line. -/
def Reading.blockAfter (current : Option StateName) : Reading → Option StateName
  | .header state => some state
  | _ => current

/-- The lines of a source from a place on where a block may be open. -/
def readLines (current : Option StateName) : List (Nat × List Char) → List SourceLine
  | [] => []
  | (number, raw) :: rest =>
    let line := trim raw
    let reading := readContent current (stripComment line)
    ⟨number, String.ofList line, reading⟩ :: readLines (reading.blockAfter current) rest

/-- The lines of a source, numbered from one. -/
def sourceLines (source : String) : List SourceLine :=
  readLines none (numberFrom 1 (lines source.toList))

/-- The value that the last line for a field sets. -/
def settingOf? (field : Field) (lines : List SourceLine) : Option String :=
  (lines.filterMap fun line =>
    match line.reading with
    | .setting set value => if set = field then some value else none
    | _ => none).getLast?

/-- The states whose blocks are opened, in order of first appearance. -/
def headerStates (lines : List SourceLine) : List StateName :=
  (lines.filterMap fun line =>
    match line.reading with
    | .header state => some state
    | _ => none).eraseDups

/-- One state's action for one symbol, with the line that declares it. -/
structure Declaration where
  state : StateName
  symbol : Symbol
  action : Action
  line : Nat
  text : String
  deriving DecidableEq, Repr

namespace Declaration

/-- What a declaration is about. -/
def key (declaration : Declaration) : StateName × Symbol :=
  (declaration.state, declaration.symbol)

/-- The rule that a declaration amounts to: without a write it passes over its
symbol, and writing the empty symbol is writing the blank. -/
def rule (blank : Symbol) (declaration : Declaration) : Rule where
  state := declaration.state
  read := declaration.symbol
  next := declaration.action.next
  write :=
    match declaration.action.write with
    | none => declaration.symbol
    | some symbol => if symbol.isEmpty then blank else symbol
  move := declaration.action.move
  passthrough := declaration.action.write.isNone
  line := some declaration.line

/-- The report of a declaration whose key was declared before. -/
def duplicateProblem (declaration : Declaration) : Problem where
  line := declaration.line
  text := declaration.text
  reason :=
    "duplicate rule for (" ++ declaration.state ++ ", " ++ declaration.symbol ++
      "); first one kept"

end Declaration

/-- The declarations of a line, the empty symbol standing for the blank. -/
def SourceLine.declarations (blank : Symbol) (line : SourceLine) : List Declaration :=
  match line.reading with
  | .transition state symbols action =>
    symbols.map fun symbol =>
      { state
        symbol := if symbol.isEmpty then blank else symbol
        action
        line := line.number
        text := line.text }
  | _ => []

/-- The problem that a line is. -/
def SourceLine.problem? (line : SourceLine) : Option Problem :=
  match line.reading with
  | .faulty fault => some ⟨line.number, line.text, fault.message⟩
  | _ => none

/-- The declarations whose key is neither known nor declared earlier. -/
def firstsOf (known : List (StateName × Symbol)) : List Declaration → List Declaration
  | [] => []
  | declaration :: rest =>
    if known.contains declaration.key then firstsOf known rest
    else declaration :: firstsOf (declaration.key :: known) rest

/-- The declarations whose key is known or declared earlier. -/
def repeatsOf (known : List (StateName × Symbol)) : List Declaration → List Declaration
  | [] => []
  | declaration :: rest =>
    if known.contains declaration.key then declaration :: repeatsOf known rest
    else repeatsOf (declaration.key :: known) rest

/-- Declarations gathered by state; states come in order of first appearance. -/
def byState (declarations : List Declaration) : List (StateName × List Declaration) :=
  (declarations.map Declaration.state).eraseDups.map fun state =>
    (state, declarations.filter fun declaration => declaration.state == state)

/-- A structured source after everything in it was settled. -/
structure Document where
  start : StateName
  blank : Symbol
  input : String
  states : List StateName
  blocks : List (StateName × List Declaration)
  problems : List Problem
  deriving DecidableEq, Repr

/-- The start state of a source that names none and opens no block. -/
def fallbackStart : StateName := "right"

/-- What the lines of a source add up to. -/
def Document.ofLines (lines : List SourceLine) : Document :=
  let blank := (settingOf? .blank lines).getD defaultBlank
  let states := headerStates lines
  let declarations := lines.flatMap (SourceLine.declarations blank)
  let problems := lines.filterMap SourceLine.problem? ++
    (repeatsOf [] declarations).map Declaration.duplicateProblem
  { start := (settingOf? .start lines).getD (states.head?.getD fallbackStart)
    blank
    input := (settingOf? .input lines).getD ""
    states
    blocks := byState (firstsOf [] declarations)
    problems := problems.mergeSort fun before after => before.line ≤ after.line }

/-- The document of a structured source. -/
def Document.read (source : String) : Document :=
  .ofLines (sourceLines source)

/-- The rules of a document, block by block. -/
def Document.rules (document : Document) : List Rule :=
  document.blocks.flatMap fun block => block.2.map (Declaration.rule document.blank)

/-- The machine of a document; each character of the input is a cell. -/
def Document.definition (document : Document) : Definition where
  dialect := .structured
  rules := document.rules
  tape :=
    if document.input.isEmpty then defaultTape
    else document.input.toList.map String.singleton
  start := document.start
  blank := document.blank
  problems := document.problems

/-- The machine of a structured source. -/
def read (source : String) : Definition :=
  (Document.read source).definition

end TapeLab.Structured
