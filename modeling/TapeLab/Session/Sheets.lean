import TapeLab.Console.Event
import TapeLab.Simulation.Basic
import TapeLab.Text.Line
import TapeLab.Workspace.Path

/-!
# Tables of a session

The transition table of a machine, its recorded history, and the machine files of a
directory, as tables for a console.  Symbols and states are escaped, so that no part of
them counts as a style tag; the names of files are shown as they are.
-/

namespace TapeLab.Session

open Console

/-- Columns in the middle of which texts stand. -/
def centered (headers : List String) : List Column :=
  headers.map fun header => { header, side := .center }

/-- What a rule writes, in brackets if it leaves the cell as it is. -/
def writtenCell (rule : Rule) : String :=
  if rule.passthrough then "(" ++ rule.write ++ ")" else rule.write

section

variable (escape : String → String)

/-- A rule as a row; the rules of the state that the machine is in stand out. -/
def ruleRow (current : StateName) (rule : Rule) : Row where
  cells :=
    ((rule.line.filter (· != 0)).map toString).getD "" ::
      [rule.state, rule.read, writtenCell rule, String.singleton rule.move.letter,
        rule.next].map escape
  style := if rule.state == current then some "bold yellow" else none

/-- The transition table of a simulation. -/
def ruleSheet (simulation : Simulation) : Sheet where
  title := some "Transition Table"
  columns :=
    { header := "Line", side := .right } :: centered ["State", "Read", "Write", "Move", "Next"]
  rows := simulation.table.rules.map (ruleRow escape simulation.config.state)

/-- A line of the history as a row. -/
def historyRow (row : Simulation.HistoryRow) : Row where
  cells :=
    [toString row.steps, escape row.state, toString row.head, escape row.symbol,
      row.status.word]

/-- The recorded history of a simulation. -/
def historySheet (simulation : Simulation) : Sheet where
  title := some "Step History"
  columns :=
    [{ header := "Step", side := .right }, { header := "State", side := .center },
     { header := "Head", side := .right }, { header := "Symbol", side := .center },
     { header := "Status", side := .center }]
  rows := simulation.historyRows.map (historyRow escape)

end

/-- Machine files with their numbers, counted from zero. -/
def fileSheet (paths : List Path) : Sheet where
  columns := [{ header := "Index", side := .center }, { header := "Machine File" }]
  rows := (Text.numberFrom 0 paths).map fun (number, path) =>
    { cells := [toString number, path.name] }

end TapeLab.Session
