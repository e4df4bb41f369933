import TapeLab.Journal
import TapeLab.MachineFile
import TapeLab.Text.Numeral

/-!
# Pools

A pool is a collection of machine files that are run one after another.  A `Plan`
says how; a `State` is what a pool run has come to: the workspace, what was said and
shown on the way, the paths that are completed, and the records of the batch at work.

Records reach the results file a batch at a time.  A pool run that fails keeps the
state it failed in, so what was gathered for an unfinished batch can still be seen.
-/

namespace TapeLab.Pool

open Json

/-- How a pool is run.  The batch size and the step cap may be left open; a run then
fails where it would need them. -/
structure Plan where
  pool : String
  output : String := "results"
  resultsRoot : String := "results"
  batchSize : Option Int := some 64
  cap : Option Nat := some 10000
  writeBlank : Bool := false
  journal : Option Journal := none
  longRunners : String := "pools/long_runners.txt"
  moment : Moment

/-- The progress shown for a batch. -/
structure Progress where
  total : Nat
  advanced : Nat := 0
  deriving DecidableEq, Repr

/-- The caption of the progress of every batch. -/
def progressCaption : String := "[cyan]Simulating..."

/-- What a pool run says on its way. -/
inductive Notice where
  /-- How many paths the pool has, and how many of them are pending. -/
  | loaded (total pending : Nat)
  /-- A batch begins. -/
  | batchBegun (number size : Nat)
  /-- A machine was skipped, since it has no rules. -/
  | ruleless (path : String)
  /-- A machine could not be run, because of a file. -/
  | failed (path : String) (fault : Fault)
  /-- A batch was stored. -/
  | batchStored
  /-- The pool was run to its end. -/
  | finished
  deriving DecidableEq, Repr

/-- The wording of a notice. -/
def Notice.text : Notice → String
  | .loaded total pending =>
    "Loaded " ++ Text.grouped total ++ " total machines. " ++ Text.grouped pending ++ " pending."
  | .batchBegun number size =>
    "Processing batch " ++ toString number ++ " with " ++ Text.grouped size ++ " machines..."
  | .ruleless path => "[WARNING] " ++ path ++ " has no transition rules, skipped."
  | .failed path fault => "[WARNING] Failed to simulate " ++ path ++ ": " ++ fault.message
  | .batchStored => "[INFO] Batch completed. Checkpoint saved."
  | .finished => "[SUCCESS] All machines simulated. Results saved."

/-- What a pool run has come to. -/
structure State where
  workspace : Workspace
  notices : List Notice := []
  progress : List Progress := []
  completed : Value := .list []
  batch : List RunRecord := []

/-- What was said, under the name of the current directory. -/
def State.messages (state : State) : List String :=
  let place := state.workspace.current.getLast?.getD ""
  state.notices.map fun notice => "[" ++ place ++ "] " ++ notice.text

/-- A part of a pool run. -/
abbrev Run := ExceptT Fault (StateM State)

/-- Use the workspace of a pool run. -/
def onWorkspace {α : Type} (operation : Storage α) : Run α :=
  fun state =>
    let (result, workspace) := operation.run state.workspace
    (result, { state with workspace })

/-- Say something. -/
def say (notice : Notice) : Run Unit :=
  modify fun state => { state with notices := state.notices ++ [notice] }

/-- Show the progress of a new batch. -/
def showProgress (total : Nat) : Run Unit :=
  modify fun state => { state with progress := state.progress ++ [{ total }] }

/-- The last progress advanced by one. -/
def advanceLast : List Progress → List Progress
  | [] => []
  | [last] => [{ last with advanced := last.advanced + 1 }]
  | first :: rest => first :: advanceLast rest

/-- Advance the progress of the batch at work. -/
def advance : Run Unit :=
  modify fun state => { state with progress := advanceLast state.progress }

namespace Plan

/-- The directory of a pool's results, which is named for the pool. -/
def folder (plan : Plan) : Path :=
  (Path.ofText plan.resultsRoot).join (Path.ofText (Path.ofText plan.pool).stem)

/-- The file to which records are appended. -/
def resultsFile (plan : Plan) : String :=
  (plan.folder.join (Path.ofText (plan.output ++ ".jsonl"))).text

/-- The file that tells which paths are completed. -/
def checkpointFile (plan : Plan) : String :=
  (plan.folder.join (Path.ofText (plan.output ++ "_checkpoint.json"))).text

end Plan

/-- The paths in a pool: the machine files of a directory, or those that a text file
lists, one on each line that is not blank. -/
def members (pool : String) : Storage (List String) := do
  let shown := (Path.ofText pool).text
  if ← Workspace.isDirectory shown then
    return (← MachineFile.findIn shown).map Path.text
  else
    let text ← Workspace.readText shown
    return ((Text.feedLines text.toList).map Text.trim).filterMap fun line =>
      if line.isEmpty then none else some (String.ofList line)

/-- The machine of a path and the end of its run.  Nothing with rules can be run without
a step cap. -/
def outcome (plan : Plan) (path : String) : Storage (Definition × Option Config) :=
  match plan.cap with
  | some cap => MachineFile.simulate path cap plan.writeBlank
  | none => do
    let definition ← MachineFile.read path
    if definition.isEmpty then return (definition, none)
    else throw (.valueMissing "the step cap")

/-- Add a path to the list of machines that did not end. -/
def promote (plan : Plan) (path : String) : Storage Unit := do
  Workspace.makeDirectories (Path.ofText plan.longRunners).parent
  Workspace.touch plan.longRunners
  Workspace.append plan.longRunners (path ++ "\n")

end TapeLab.Pool
