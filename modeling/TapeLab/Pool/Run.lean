import TapeLab.CommandLine
import TapeLab.Pool.Checkpoint

/-!
# Running a pool

The machines of a pool that are not completed are run batch by batch.  A machine
whose file cannot be used is reported and stays pending; every other one is
completed, with a record if it has rules.  After each batch its records are appended
to the results file and to the journal, and the checkpoint is saved.
-/

namespace TapeLab.Pool

open Json

/-- Keep a record for the batch at work. -/
def keep (record : RunRecord) : Run Unit :=
  modify fun state => { state with batch := state.batch ++ [record] }

/-- Count a path as completed. -/
def complete (path : String) : Run Unit := do
  let completed ← liftExcept ((addCompleted path (← get).completed).mapError Fault.data)
  modify fun state => { state with completed }

/-- Run the machine of a path and keep its record. -/
def simulate (plan : Plan) (path : String) : Run Unit := do
  let (definition, final) ← onWorkspace (outcome plan path)
  match final with
  | none => say (.ruleless path)
  | some config =>
    keep (RunRecord.ofRun path definition config plan.moment)
    if config.status == .running then onWorkspace (promote plan path)
  complete path

/-- Run the machine of a path, or report that its file could not be used. -/
def attempt (plan : Plan) (path : String) : Run Unit := do
  try simulate plan path
  catch fault =>
    if fault.concernsFile then say (.failed path fault) else throw fault
  advance

/-- Append records to the results file. -/
def appendResults (plan : Plan) (records : List RunRecord) : Storage Unit :=
  records.forM fun record => Workspace.append plan.resultsFile (Journal.line record.value)

/-- Route records to the journal, if there is one. -/
def journalResults (plan : Plan) (records : List RunRecord) : Storage Unit :=
  match plan.journal with
  | some journal => journal.logByStatus (.list (records.map RunRecord.value))
  | none => return

/-- Store what a batch has gathered: the results, the journal, and last the
checkpoint. -/
def storeBatch (plan : Plan) : Run Unit := do
  let state ← get
  onWorkspace (appendResults plan state.batch)
  onWorkspace (journalResults plan state.batch)
  onWorkspace (saveCompleted plan state.completed)

/-- Run the machines of a batch, and keep their records for it. -/
def gather (plan : Plan) (number : Nat) (paths : List String) : Run Unit := do
  say (.batchBegun number paths.length)
  showProgress paths.length
  modify fun state => { state with batch := [] }
  paths.forM (attempt plan)

/-- Run the batch of a number: the records it gathered. -/
def runBatch (plan : Plan) (number : Nat) (paths : List String) : Run (List RunRecord) := do
  gather plan number paths
  storeBatch plan
  say .batchStored
  return (← get).batch

/-- Cut paths into batches of a size; there is no batch of size zero. -/
def batches (size : Nat) : List String → List (List String)
  | [] => []
  | first :: rest =>
    if size = 0 then []
    else (first :: rest.take (size - 1)) :: batches size (rest.drop (size - 1))
termination_by paths => paths.length
decreasing_by
  simp only [List.length_drop, List.length_cons]
  omega

/-- Run batches, numbered from one on. -/
def runBatches (plan : Plan) : Nat → List (List String) → Run (List RunRecord)
  | _, [] => return []
  | number, paths :: rest => do
    let records ← runBatch plan number paths
    return records ++ (← runBatches plan (number + 1) rest)

/-- Begin a pool run: what is completed and what is pending. -/
def prepare (plan : Plan) : Run (List String) := do
  onWorkspace (Workspace.makeDirectories plan.folder)
  let paths ← onWorkspace (members plan.pool)
  let completed ← onWorkspace (loadCompleted plan)
  modify fun state => { state with completed }
  let pending ← liftExcept ((pendingOf completed paths).mapError Fault.data)
  say (.loaded paths.length pending.length)
  onWorkspace (Workspace.touch plan.resultsFile)
  return pending

/-- The size of batches; one below zero makes no batch. -/
def sizeOfBatches (plan : Plan) : Except Fault Nat :=
  match plan.batchSize with
  | none => .error (.valueMissing "the batch size")
  | some size => if size = 0 then .error .batchSizeZero else .ok size.toNat

/-- Run a pool: the records of this run. -/
def run (plan : Plan) : Run (List RunRecord) := do
  let pending ← prepare plan
  let size ← liftExcept (sizeOfBatches plan)
  let records ← runBatches plan 1 (batches size pending)
  say .finished
  return records

/-- The options of the pool runner. -/
def parameters : List CommandLine.Parameter :=
  [{ name := "--pool", takes := .text, required := true },
   { name := "--output", takes := .text },
   { name := "--batch_size", takes := .wholeNumber },
   { name := "--max_steps", takes := .wholeNumber },
   { name := "--write_blank", takes := .nothing },
   { name := "--log_dir", takes := .text }]

/-- The text for an option that cannot do without. -/
def demand (option : String) : Option String → Except Fault String
  | some text => .ok text
  | none => .error (.valueMissing option)

/-- The name of a pool's files if the option for it has no value: that of an empty list. -/
def valuelessOutput : String := "[]"

/-- The plan that options ask for, with a journal begun. -/
def planFor (options : CommandLine.Options) (moment : Moment) : Storage Plan := do
  let directory ← liftExcept (demand "--log_dir" (options.textOr "--log_dir" "logs/"))
  let journal ← Journal.begin? directory "turingtape_" moment
  let pool ← liftExcept (demand "--pool" (options.textOr "--pool" ""))
  return {
    pool
    output := (options.textOr "--output" "results").getD valuelessOutput
    batchSize := options.numberOr "--batch_size" 64
    cap := (options.numberOr "--max_steps" 10000).map Int.toNat
    writeBlank := options.has "--write_blank"
    journal := some journal
    moment }

/-- The pool runner on a command line, or the end before it began. -/
def runWords (words : List String) (moment : Moment) : Run (Except CommandLine.Stop Unit) := do
  match CommandLine.read parameters words with
  | .error stop => return .error stop
  | .ok options =>
    let plan ← onWorkspace (planFor options moment)
    discard (run plan)
    return .ok ()

end TapeLab.Pool
