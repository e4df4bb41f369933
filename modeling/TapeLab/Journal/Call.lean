import TapeLab.Journal

/-!
# Calls of a journal

What a journal can be asked for, one call after another, and which entries a call sends to
which of the journal's files.
-/

namespace TapeLab.Journal

open Json

/-- The files of a journal. -/
inductive File where
  | main
  | status (status : Status)
  deriving DecidableEq, Repr

/-- The path of a file. -/
def path (journal : Journal) : File → String
  | .main => journal.mainFile
  | .status status => journal.statusFile status

/-- A call of a journal. -/
inductive Call where
  | log (entry : Value)
  | logBatch (entries : List Value)
  | logStatus (status : Status) (entries : List Value)
  | logByStatus (entries : List Value)

/-- The entries that a call is given. -/
def Call.entries : Call → List Value
  | .log entry => [entry]
  | .logBatch entries => entries
  | .logStatus _ entries => entries
  | .logByStatus entries => entries

/-- Make a call. -/
def perform (journal : Journal) : Call → Storage Unit
  | .log entry => journal.log entry
  | .logBatch entries => journal.logBatch (.list entries)
  | .logStatus status entries => journal.logStatus status (.list entries)
  | .logByStatus entries => journal.logByStatus (.list entries)

/-- Begin a journal and make calls one after another. -/
def keep (directory label : String) (moment : Moment) (calls : List Call) : Storage Journal := do
  let journal ← begin? directory label moment
  calls.forM journal.perform
  return journal

/-- The entry is a record that names a status as its own. -/
def Tells (status : Status) (entry : Value) : Prop :=
  ∃ fields, entry = .record fields ∧ Keyed.get? fields "status" = some (.text status.word)

/-- Entries are told apart by the status that they name. -/
theorem hasStatus_iff {status : Status} {entry : Value} :
    hasStatus status entry = true ↔ Tells status entry := by
  constructor
  · intro has
    simp only [hasStatus] at has
    split at has
    · next fields =>
      split at has
      · next word found => exact ⟨fields, rfl, beq_iff_eq.mp has ▸ found⟩
      · cases has
    · cases has
  · rintro ⟨fields, rfl, found⟩
    simp [hasStatus, found]

instance (status : Status) (entry : Value) : Decidable (Tells status entry) :=
  decidable_of_iff _ hasStatus_iff

/-- The entries that a call sends to a file, in order. -/
def Call.sent : File → Call → List Value
  | .main, .log entry => [entry]
  | .main, .logBatch entries => entries
  | .status status, .logStatus other entries => if other = status then entries else []
  | .status status, .logByStatus entries => entries.filter fun entry => Tells status entry
  | _, _ => []

end TapeLab.Journal
