import TapeLab.Machine.Table

/-!
# Transition grids

A table as a grid: one row for every state that the rules name, one column for
every symbol that they read, and in each cell what the state does with the symbol.
-/

namespace TapeLab.Inspect

/-- A table as a grid. -/
structure Grid where
  symbols : List Symbol
  rows : List (StateName × List String)
  deriving DecidableEq, Repr

/-- The text of a cell without a rule. -/
def emptyCell : String := "-"

/-- The text of a cell in which the machine stops where it is. -/
def haltCell : String := "HALT"

/-- What a row's state does by a rule. -/
def ruleCell (state : StateName) (rule : Rule) : String :=
  if rule.move.halts && rule.next == state then haltCell
  else rule.write ++ " " ++ String.singleton rule.move.letter ++ " " ++ rule.next

/-- The cell of a state and a symbol. -/
def cell (table : Table) (state : StateName) (symbol : Symbol) : String :=
  match (table.rulesFor state).find? fun rule => rule.read == symbol with
  | some rule => ruleCell state rule
  | none => emptyCell

/-- The symbols that the rules read, each once, in the order of their code points. -/
def columns (table : Table) : List Symbol :=
  ((table.rules.map Rule.read).eraseDups).mergeSort fun left right => decide (left ≤ right)

/-- The grid of a table. -/
def Grid.ofTable (table : Table) : Grid :=
  let symbols := columns table
  { symbols
    rows := table.states.map fun state => (state, symbols.map (cell table state)) }

end TapeLab.Inspect
