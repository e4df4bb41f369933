import TapeLab.Examples
import TapeLab.MachineFile
import TapeLab.Session.Basic

/-!
# Loading a machine

A machine comes from a file, chosen by its number in the machines directory or by its
path, or from the bundled examples.  Whatever keeps a machine from being loaded is
reported, and the session goes on without it.
-/

namespace TapeLab.Session

open Console

/-- A machine on the bench, and the name under which it was loaded. -/
structure Loaded where
  simulation : Simulation
  name : String

/-- The machine on the bench as one of a name. -/
def loadedAs (name : String) (simulation : Option Simulation) : Option Loaded :=
  simulation.map fun simulation => { simulation, name }

/-- The path that an answer chooses: that of the file with its number, if it is one,
or else the answer itself.  Digits that make up no number cannot be used. -/
def chosenPath (paths : List Path) (answer : String) : Except Fault String :=
  let characters := answer.toList
  if characters.isEmpty || !characters.all Text.isDigitLike then .ok answer
  else
    match Text.natural? characters with
    | none => .error .unreadableIndex
    | some number => .ok ((paths[number]?.map Path.text).getD answer)

/-- The question for a machine file. -/
def fileQuestion : Question String :=
  Question.anyText "Index or path of the machine file"

/-- The example that is assumed. -/
def usualExample : String := "binary-increment"

/-- The question for an example. -/
def exampleQuestion : Question String :=
  Question.choiceOr "Example" Examples.names usualExample

variable [Terminal]

/-- Report the problems of a definition and put its machine on the bench, if it has
anything to run. -/
def putOnBench (settings : Settings) (definition : Definition) : Session (Option Simulation) := do
  (definition.problems.map Notice.skipped).forM say
  say (.summary definition)
  match Simulation.start definition settings.writeBlank settings.keepHistory with
  | .ok simulation => return some simulation
  | .error fault =>
    say (.nothingToRun fault)
    return none

/-- Load a machine from a file. -/
def loadFile (settings : Settings) : Session (Option Loaded) := do
  let paths ← onWorkspace (MachineFile.findIn settings.machinesDirectory)
  unless paths.isEmpty do say (.files paths)
  let answer ← ask fileQuestion
  let path ← settle (chosenPath paths answer)
  match ← attempt Fault.concernsFile (MachineFile.read path) with
  | .ok definition => return loadedAs path (← putOnBench settings definition)
  | .error fault =>
    say (.unreadable fault)
    return none

/-- Load a bundled machine. -/
def loadExample (settings : Settings) : Session (Option Loaded) := do
  let name ← ask exampleQuestion
  return loadedAs name (← putOnBench settings (← settle (Examples.machine name)))

end TapeLab.Session
