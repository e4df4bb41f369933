import Mathlib.Data.List.Forall2
import TapeLab.Structured.Source

/-!
# Printing structured sources

A machine as structured source text, in which every name and symbol is quoted.  A text
with both kinds of quote cannot be quoted, and a text with a line boundary cannot stand
on a line; everything else can be printed (`Blueprint.Writable`).

`Blueprint.IsWrittenAs` allows every print that differs only in its quotes and in the
blanks before its lines, and `Blueprint.print` is one of them.
-/

namespace TapeLab.Structured

open TapeLab.Text

/-- A transition to be printed; one that writes nothing leaves the cell as it is. -/
structure Clause where
  state : StateName
  read : Symbol
  write : Option Symbol
  move : Move
  next : StateName
  deriving DecidableEq, Repr

namespace Clause

/-- What a transition is about. -/
def key (clause : Clause) : StateName × Symbol :=
  (clause.state, clause.read)

/-- The names and symbols of a transition. -/
def texts (clause : Clause) : List String :=
  [clause.state, clause.read, clause.next] ++ clause.write.toList

/-- What a state does with a symbol by a transition. -/
def action (clause : Clause) : Action :=
  ⟨clause.write, clause.move, clause.next⟩

/-- The rule that a transition declares on a line. -/
def rule (clause : Clause) (line : Nat) : Rule where
  state := clause.state
  read := clause.read
  next := clause.next
  write := clause.write.getD clause.read
  move := clause.move
  passthrough := clause.write.isNone
  line := some line

end Clause

/-- A machine to be printed. -/
structure Blueprint where
  input : String
  blank : Symbol
  start : StateName
  clauses : List Clause
  deriving DecidableEq, Repr

/-- What a printed line says. -/
inductive Statement where
  | setting (field : Field) (value : String)
  | table
  | header (state : StateName)
  | clause (clause : Clause)
  deriving DecidableEq, Repr

/-- What the lines of transitions say that follow those of a state: a header wherever the
state is another one. -/
def clauseStatements (current : Option StateName) : List Clause → List Statement
  | [] => []
  | clause :: rest =>
    if current = some clause.state then
      .clause clause :: clauseStatements (some clause.state) rest
    else
      .header clause.state :: .clause clause :: clauseStatements (some clause.state) rest

/-- What the lines of a machine say. -/
def Blueprint.statements (blueprint : Blueprint) : List Statement :=
  [.setting .input blueprint.input, .setting .blank blueprint.blank,
    .setting .start blueprint.start, .table] ++ clauseStatements none blueprint.clauses

/-- The line of a setting for a value in quotes. -/
def settingLine (field : Field) (value : List Char) : List Char :=
  field.words ++ ':' :: ' ' :: value

/-- The line that opens the block of a state in quotes. -/
def headerLine (state : List Char) : List Char :=
  state ++ [':']

/-- The line of a transition for symbols and a next state in quotes. -/
def clauseLine (read : List Char) (write : Option (List Char)) (move : Move)
    (next : List Char) : List Char :=
  let written := match write with
    | some symbol => writeWord.toList ++ ':' :: ' ' :: (symbol ++ [',', ' '])
    | none => []
  read ++ ':' :: ' ' :: Mark.openBrace.char ::
    (written ++ move.letter :: ':' :: ' ' :: (next ++ [Mark.closeBrace.char]))

/-- A text in quotes that do not occur in it. -/
def IsQuoted (text : String) (written : List Char) : Prop :=
  ∃ quote, isQuote quote = true ∧ quote ∉ text.toList ∧
    written = quote :: (text.toList ++ [quote])

/-- The texts that say something. -/
inductive Statement.IsShownAs : Statement → List Char → Prop where
  | setting {field : Field} {value : String} {valueText : List Char}
      (valueQuoted : IsQuoted value valueText) :
      IsShownAs (.setting field value) (settingLine field valueText)
  | table : IsShownAs .table tableMarker
  | header {state : StateName} {stateText : List Char} (stateQuoted : IsQuoted state stateText) :
      IsShownAs (.header state) (headerLine stateText)
  | passing {state next : StateName} {read : Symbol} {move : Move}
      {readText nextText : List Char} (readQuoted : IsQuoted read readText)
      (nextQuoted : IsQuoted next nextText) :
      IsShownAs (.clause ⟨state, read, none, move, next⟩) (clauseLine readText none move nextText)
  | writing {state next : StateName} {read write : Symbol} {move : Move}
      {readText writeText nextText : List Char} (readQuoted : IsQuoted read readText)
      (writeQuoted : IsQuoted write writeText) (nextQuoted : IsQuoted next nextText) :
      IsShownAs (.clause ⟨state, read, some write, move, next⟩)
        (clauseLine readText (some writeText) move nextText)

/-- The lines that say something: its text, with blanks before it. -/
def Statement.IsLine (statement : Statement) (line : List Char) : Prop :=
  ∃ indent text, AllBlank indent ∧ Unbroken indent ∧ statement.IsShownAs text ∧
    line = indent ++ text

/-- The sources that a machine can be written as.  The last line may be ended or not. -/
def Blueprint.IsWrittenAs (blueprint : Blueprint) (source : String) : Prop :=
  ∃ lines ending, List.Forall₂ Statement.IsLine blueprint.statements lines ∧
    (ending = [] ∨ ending = ['\n']) ∧ source.toList = ['\n'].intercalate lines ++ ending

/-- No other element stands between two that are the same. -/
def Grouped {α : Type} (list : List α) : Prop :=
  ∀ front between rest element, list = front ++ element :: (between ++ element :: rest) →
    ∀ other ∈ between, other = element

namespace Blueprint

/-- The names and symbols of a machine. -/
def names (blueprint : Blueprint) : List String :=
  blueprint.blank :: blueprint.start :: blueprint.clauses.flatMap Clause.texts

/-- The machines that can be printed. -/
structure Writable (blueprint : Blueprint) : Prop where
  named : ∀ name ∈ blueprint.names, name ≠ ""
  unbroken : ∀ text ∈ blueprint.input :: blueprint.names, Unbroken text.toList
  quotable : ∀ text ∈ blueprint.input :: blueprint.names, '"' ∉ text.toList ∨ '\'' ∉ text.toList
  distinct : (blueprint.clauses.map Clause.key).Nodup
  grouped : Grouped (blueprint.clauses.map Clause.state)

end Blueprint

/-- The rules of transitions that are printed from a line on after those of a state. -/
def clauseRules (number : Nat) (current : Option StateName) : List Clause → List Rule
  | [] => []
  | clause :: rest =>
    if current = some clause.state then
      clause.rule number :: clauseRules (number + 1) (some clause.state) rest
    else
      clause.rule (number + 1) :: clauseRules (number + 2) (some clause.state) rest

/-- The machine that a print stands for: the first transition follows the four lines at
the top. -/
def Blueprint.definition (blueprint : Blueprint) : Definition where
  dialect := .structured
  rules := clauseRules 5 none blueprint.clauses
  tape :=
    if blueprint.input.isEmpty then defaultTape
    else blueprint.input.toList.map String.singleton
  start := blueprint.start
  blank := blueprint.blank

/-- A text in a quote that it lacks, if it lacks one. -/
def inQuotes (text : String) : List Char :=
  let quote := if text.toList.contains '"' then '\'' else '"'
  quote :: (text.toList ++ [quote])

/-- The text that the printer makes of a statement. -/
def Statement.text : Statement → List Char
  | .setting field value => settingLine field (inQuotes value)
  | .table => tableMarker
  | .header state => headerLine (inQuotes state)
  | .clause transition =>
    clauseLine (inQuotes transition.read) (transition.write.map inQuotes) transition.move
      (inQuotes transition.next)

/-- A machine as structured source text, with something before each line. -/
def Blueprint.print (indent : Nat → List Char) (blueprint : Blueprint) : String :=
  let lines := blueprint.statements.mapIdx fun index statement => indent index ++ statement.text
  String.ofList (['\n'].intercalate lines ++ ['\n'])

end TapeLab.Structured
