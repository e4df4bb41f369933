import TapeLab.Classic.Printer
import TapeLab.CommandLine
import TapeLab.Examples
import TapeLab.Inspect.Grid
import TapeLab.MachineFile

/-!
# Inspection reports

What a machine is: where it starts, what is on its tape, which lines of its source
could not be used, and its table as a grid, plain and for typesetting.  A report may
end with the machine in classic notation.
-/

namespace TapeLab.Inspect

/-- The lines about the machine as a whole. -/
def headLines (label : String) (definition : Definition) : List String :=
  ["[INFO] Machine " ++ label,
   "  Syntax: " ++ definition.dialect.name,
   "  Start state: " ++ definition.start,
   "  Blank: " ++ Text.quoted definition.blank,
   "  Initial tape: " ++ String.join definition.tape,
   "  " ++ definition.summary] ++
    definition.problems.map fun problem => "  [WARNING] " ++ problem.message

/-- The cells of a row, its state first. -/
def rowCells (row : StateName × List String) : List String :=
  row.1 :: row.2

/-- The grid with tabs between the cells. -/
def plainLines (grid : Grid) : List String :=
  ["", "=== Transition Table ===", String.intercalate "\t" ("State" :: grid.symbols)] ++
    grid.rows.map fun row => String.intercalate "\t" (rowCells row)

/-- A symbol as the head of a typeset column. -/
def typesetHead (symbol : Symbol) : String :=
  "\\text\x7b" ++ symbol ++ "\x7d"

/-- The grid as a typeset array. -/
def typesetLines (grid : Grid) : List String :=
  ["", "=== LaTeX Table ===",
   "\\begin\x7barray\x7d\x7bc|" ++ String.ofList (List.replicate grid.symbols.length 'c') ++ "\x7d",
   "State/Symbol & " ++ String.intercalate " & " (grid.symbols.map typesetHead) ++
     " \\\\ \\hline"] ++
    (grid.rows.map fun row => String.intercalate " & " (rowCells row) ++ " \\\\") ++
    ["\\end\x7barray\x7d"]

/-- The report of a machine under a label. -/
def report (label : String) (withClassic : Bool) (definition : Definition) : String :=
  let head := Examples.unlines (headLines label definition)
  if definition.isEmpty then head ++ Examples.unlines ["[ERROR] No transition rules found."]
  else
    let grid := Grid.ofTable (Table.ofDefinition definition)
    head ++ Examples.unlines (plainLines grid ++ typesetLines grid) ++
      if withClassic then
        Examples.unlines ["", "=== Classic Syntax ==="] ++ Classic.print definition.rules
      else ""

/-- The options of the inspector. -/
def parameters : List CommandLine.Parameter :=
  [{ name := "--machine", takes := .text },
   { name := "--example", takes := .text },
   { name := "--classic", takes := .nothing }]

/-- The report that options ask for. -/
def reportFor (options : CommandLine.Options) : Storage String := do
  let withClassic := options.has "--classic"
  match options.nonemptyText? "--machine", options.nonemptyText? "--example" with
  | some path, _ => return report path withClassic (← MachineFile.read path)
  | none, some name => return report name withClassic (← liftExcept (Examples.machine name))
  | none, none => throw .noMachineNamed

/-- The inspector on a command line: its report, or the end before it began. -/
def run (words : List String) : Storage (Except CommandLine.Stop String) := do
  match CommandLine.read parameters words with
  | .error stop => return .error stop
  | .ok options => return .ok (← reportFor options)

end TapeLab.Inspect
