import TapeLab.Json.Writer
import TapeLab.Record
import TapeLab.Workspace.Storage

/-!
# Journals

Run records are appended to files of a directory, one line each.  A journal has a
main file and one file for each way in which a run can stand at its end, all of them
named for the day on which the journal was begun.  A batch of entries is itself a
stored value, of which every element is one entry.
-/

namespace TapeLab

open Json

/-- A journal that was begun. -/
structure Journal where
  directory : String
  label : String
  day : String
  deriving DecidableEq, Repr

namespace Journal

/-- Begin a journal, making its directory if there is none. -/
def begin? (directory label : String) (moment : Moment) : Storage Journal := do
  Workspace.makeDirectoriesAt directory
  return { directory, label, day := moment.date }

/-- The path of a journal's file for the day. -/
def file (journal : Journal) (label : String) : String :=
  Path.joinText journal.directory (label ++ journal.day ++ ".jsonl")

/-- The main file. -/
def mainFile (journal : Journal) : String :=
  journal.file journal.label

/-- What the name of the file for runs of a status begins with. -/
def statusLabel : Status → String
  | .halted => "halted_"
  | .errored => "errored_"
  | .running => "unfinished_"

/-- The file for runs of a status. -/
def statusFile (journal : Journal) (status : Status) : String :=
  journal.file (statusLabel status)

/-- An entry as a line. -/
def line (entry : Value) : String :=
  entry.compact ++ "\n"

/-- Append entries to a file, which is made even for no entry. -/
def addAll (path : String) (entries : List Value) : Storage Unit := do
  Workspace.touch path
  entries.forM fun entry => Workspace.append path (line entry)

/-- Append the elements of a batch to a file. -/
def addBatch (path : String) (batch : Value) : Storage Unit :=
  match batch.elements? with
  | some entries => addAll path entries
  | none => do
    Workspace.touch path
    throw (.data .notSearchable)

/-- Append an entry to the main file. -/
def log (journal : Journal) (entry : Value) : Storage Unit :=
  addAll journal.mainFile [entry]

/-- Append a batch to the main file. -/
def logBatch (journal : Journal) (batch : Value) : Storage Unit :=
  addBatch journal.mainFile batch

/-- Append a batch to the file for runs of a status. -/
def logStatus (journal : Journal) (status : Status) (batch : Value) : Storage Unit :=
  addBatch (journal.statusFile status) batch

/-- Whether an entry tells of a run of a status. -/
def hasStatus (status : Status) : Value → Bool
  | .record fields =>
    match Keyed.get? fields "status" with
    | some (.text word) => word == status.word
    | _ => false
  | _ => false

/-- The statuses in the order in which their files are written. -/
def routedStatuses : List Status :=
  [.halted, .errored, .running]

/-- Append every entry to the file for its status, and those of no status nowhere.
Files that would get nothing are left alone. -/
def routeAll (journal : Journal) (entries : List Value) : Storage Unit :=
  routedStatuses.forM fun status =>
    let selected := entries.filter (hasStatus status)
    if selected.isEmpty then return else addAll (journal.statusFile status) selected

/-- Route the elements of a batch, all of which must be records. -/
def logByStatus (journal : Journal) (batch : Value) : Storage Unit :=
  match batch.elements? with
  | none => throw (.data .notSearchable)
  | some entries =>
    if entries.all fun entry => entry.kind == .record then journal.routeAll entries
    else throw (.data .notRecord)

end Journal

end TapeLab
