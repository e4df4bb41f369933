import TapeLab.CommandLine
import TapeLab.Session.Menu

/-!
# The session program

A session as it is started from a command line.  It reads its settings, loads the
machine that is asked for, and then either runs that machine at once and tells by its
exit code how the run ended, or shows the menu.
-/

namespace TapeLab.Session

open Console

/-- Where settings are kept unless another file is named. -/
def usualSettingsPath : String := "config/runtime_config.json"

/-- The options of the session program. -/
def parameters : List CommandLine.Parameter :=
  [{ name := "--machine", takes := .text },
   { name := "--example", takes := .oneOf Examples.names },
   { name := "--run", takes := .nothing },
   { name := "--max-steps", takes := .wholeNumber },
   { name := "--config", takes := .text }]

/-- The machine that a command line asks for. -/
inductive MachineChoice where
  | file (path : String)
  | bundled (name : String)
  deriving DecidableEq, Repr

/-- What a command line asks for. -/
structure Request where
  machine : Option MachineChoice := none
  runAtOnce : Bool := false
  cap : Option CommandLine.Given := none
  settingsPath : String := usualSettingsPath
  deriving DecidableEq, Repr

/-- The machine that options ask for; a file counts before an example. -/
def MachineChoice.ofOptions (options : CommandLine.Options) : Option MachineChoice :=
  match options.nonemptyText? "--machine", options.nonemptyText? "--example" with
  | some path, _ => some (.file path)
  | none, some name => some (.bundled name)
  | none, none => none

/-- What options ask for; there has to be a path for the settings. -/
def Request.ofOptions (options : CommandLine.Options) : Except Fault Request :=
  match options.textOr "--config" usualSettingsPath with
  | none => .error (.valueMissing "--config")
  | some settingsPath =>
    .ok {
      machine := MachineChoice.ofOptions options
      runAtOnce := options.has "--run"
      cap := options.last? "--max-steps"
      settingsPath }

/-- What was given for the step cap, as the value of a setting.  What was given without a
value is an empty list, which no cap can be. -/
def capValue : CommandLine.Given → Json.Value
  | .number cap => .integer cap
  | .text text => .text text
  | .nothing => .list []

/-- Settings under which a step cap was asked for. -/
def withCap (cap : Option CommandLine.Given) (settings : Settings) :
    Except SettingsFault Settings :=
  match cap with
  | none => .ok settings
  | some given => settings.with? [(.text "max_steps", capValue given)]

/-- The name under which a machine is loaded. -/
def MachineChoice.name : MachineChoice → String
  | .file path => path
  | .bundled name => name

/-- The definition of a machine. -/
def MachineChoice.definition (choice : MachineChoice) : Storage Definition :=
  match choice with
  | .file path => MachineFile.read path
  | .bundled name => liftExcept (Examples.machine name)

/-- The exit code of a run: zero if the machine halted. -/
def exitCode (simulation : Simulation) : Nat :=
  if simulation.halted then 0 else 2

section

variable [Terminal]

/-- The settings in a file, or the defaults if there is no such file. -/
def loadSettings (path : String) : Session Settings := do
  match ← attempt Fault.isMissingFile (Settings.load (some path)) with
  | .ok settings => return settings
  | .error _ =>
    say (.noSettings path)
    return Settings.defaults

/-- Run a machine at once: the exit code. -/
def runAtOnce (moment : Moment) (settings : Settings) (loaded : Loaded) : Session Nat := do
  let journal ← onWorkspace
    (Journal.begin? settings.outputDirectory settings.journalPrefix moment)
  let (simulation, _) ← runMachine settings none journal moment loaded.name loaded.simulation
  return exitCode simulation

/-- Load the machine that is asked for and run it or show the menu: the exit code.  What is
asked for beside the settings of the session counts here alone. -/
def runRequest (request : Request) (moment : Moment) (choice : MachineChoice) :
    Session Nat := do
  match withCap request.cap (← get).settings with
  | .error fault =>
    say (.refused (.settings fault))
    return 1
  | .ok settings =>
    match ← attempt Fault.concernsFile choice.definition with
    | .error fault =>
      say (.refused fault)
      return 1
    | .ok definition =>
      match loadedAs choice.name (← putOnBench settings definition) with
      | none => return 1
      | some loaded =>
        if request.runAtOnce then runAtOnce moment settings loaded
        else
          interact request.settingsPath moment { settings, loaded := some loaded }
          return 0

/-- The session program on a command line: its exit code, which a session without a
machine asked for does not set. -/
def program (words : List String) (moment : Moment) : Session (Option Nat) := do
  match CommandLine.read parameters words with
  | .error stop => return some stop.code
  | .ok options =>
    let request ← settle (Request.ofOptions options)
    let settings ← loadSettings request.settingsPath
    modify fun state => { state with settings }
    match request.machine with
    | some choice => return some (← runRequest request moment choice)
    | none =>
      interact request.settingsPath moment { settings }
      return none

end

/-- The session program on a terminal that only keeps a record. -/
def run (words : List String) (moment : Moment) : ExceptT Fault (StateM State) (Option Nat) :=
  fun state =>
    let (result, after) := ExceptT.run (@program Terminal.recorder words moment) state
    (result.mapError Breakdown.onlyFault, after)

end TapeLab.Session
