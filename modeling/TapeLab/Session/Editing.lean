import TapeLab.Session.Basic

/-!
# Editing settings

The settings that a user may change are asked for one by one, and an empty answer
keeps a setting as it is.  New settings are saved before they count; if they are
refused, nothing changes.
-/

namespace TapeLab.Session

open Console Json

/-- Whether a fault lies in what was to be saved, or in the very name of its file:
the faults that an edit survives. -/
def refusesEdit : Fault → Bool
  | .settings _ => true
  | .storage fault => fault.cause == .nullInName
  | _ => false

/-- Save the entries of new settings, if they pass the check. -/
def saveEdited (entries : Settings.Entries) (path : String) : Storage Settings := do
  let edited ← liftExcept ((Settings.ofEntries entries).mapError Fault.settings)
  Settings.save edited.entries path
  return edited

/-- A simulation under settings that may have changed. -/
def applySettings (settings : Settings) (simulation : Simulation) : Simulation :=
  (simulation.setWriteBlank settings.writeBlank).setKeepHistory settings.keepHistory

variable [Terminal]

/-- The answers to the questions about settings, as entries. -/
def askSettings (settings : Settings) : Session Settings.Entries := do
  let current := fun key => (Settings.named? settings.entries key).getD .null
  let maxSteps ← ask (.wholeNumberOr "Max Steps" (current "max_steps"))
  let stepDelay ← ask
    (.numberOr "Delay between steps in run mode (seconds)" (current "step_delay"))
  let tapeWindow ← ask
    (.wholeNumberOr "Tape cells shown either side of the head" (current "tape_window"))
  let writeBlank ← ask
    (.yesNoOr "Allow rules to write the blank symbol?" settings.writeBlank)
  let keepHistory ← ask (.yesNoOr "Keep step history?" settings.keepHistory)
  let machinesDirectory ← ask
    (.anyTextOr "Machines directory" settings.machinesDirectory)
  return Settings.entriesOf
    [("max_steps", maxSteps), ("step_delay", stepDelay), ("tape_window", tapeWindow),
     ("write_blank", .bool writeBlank), ("show_history", .bool keepHistory),
     ("machines_directory", .text machinesDirectory)]

/-- Ask for new settings and save them: the settings that count from now on. -/
def editSettings (path : String) (settings : Settings) : Session Settings := do
  say .editing
  let changes ← askSettings settings
  match ← attempt refusesEdit (saveEdited (Keyed.merge settings.entries changes) path) with
  | .ok edited =>
    say .saved
    return edited
  | .error fault =>
    say (.notSaved fault)
    return settings

end TapeLab.Session
