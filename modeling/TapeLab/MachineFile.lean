import TapeLab.Machine.Step
import TapeLab.Source
import TapeLab.Workspace.Storage

/-!
# Machine files

Machines that are kept in files: reading one, finding those of a directory, and
running one from its start.
-/

namespace TapeLab.MachineFile

/-- The suffixes of machine files. -/
def suffixes : List String :=
  [".tm", ".txt", ".yaml", ".yml"]

/-- The machine in a file, in the notation given or in the one it is written in. -/
def read (path : String) (dialect : Option Dialect := none) : Storage Definition := do
  let shown := (Path.ofText path).text
  match ← Workspace.look shown with
  | none => throw (.machineFileMissing shown)
  | some _ => return Source.read (← Workspace.readText shown) dialect

/-- The machine files of a directory, in the order of their names. -/
def findIn (directory : String) : Storage (List Path) := do
  let place := Path.ofText directory
  if ← Workspace.isDirectory place.text then
    let names ← Workspace.listFiles place.text
    return (names.map fun name => { place with parts := place.parts ++ [name] : Path }).filter
      fun path => suffixes.contains path.suffix
  else return []

/-- The end of a machine's run, cut off after `cap` steps; none for a machine
without rules. -/
def outcome (cap : Nat) (writeBlank : Bool) (definition : Definition) : Option Config :=
  if definition.isEmpty then none
  else some (definition.initial.run (Table.ofDefinition definition) writeBlank cap)

/-- The machine in a file and the end of its run. -/
def simulate (path : String) (cap : Nat) (writeBlank : Bool) :
    Storage (Definition × Option Config) := do
  let definition ← read path
  return (definition, outcome cap writeBlank definition)

end TapeLab.MachineFile
