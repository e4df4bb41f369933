import TapeLab.Fault
import TapeLab.Moment
import TapeLab.Number.Reading
import TapeLab.Settings.Label

/-!
# Settings

What a session can be told about: step cap, delay, window, the two switches, and
where files are.  Settings are kept as labelled entries, because a file may hold
further ones and all of them are shown and saved in order; a `Settings` is a list of
entries together with the fact that it was checked.
-/

namespace TapeLab

open Json

/-- The settings that must be there, in the order in which they are checked, and the
kinds that each may have. -/
def settingKinds : List (String × List Kind) :=
  [("max_steps", [.integer]),
   ("step_delay", [.integer, .float]),
   ("tape_window", [.integer]),
   ("write_blank", [.bool]),
   ("show_history", [.bool]),
   ("machines_directory", [.text]),
   ("output_directory", [.text]),
   ("log_file_prefix", [.text])]

/-- A number below zero; what is not a number is not below zero. -/
def Json.Value.isBelowZero : Value → Bool
  | .integer value => value < 0
  | .float value => value.isNegative
  | _ => false

namespace Settings

/-- Values under labels, in order. -/
abbrev Entries := Keyed Label Value

/-- The fields of a record as entries. -/
def entriesOf (fields : Fields) : Entries :=
  fields.map fun (name, value) => (.text name, value)

/-- Entries as the fields in which they are stored. -/
def storedFields (entries : Entries) : Fields :=
  entries.map fun (label, value) => (label.fieldName, value)

/-- The value of the setting of a name. -/
def named? (entries : Entries) (name : String) : Option Value :=
  Keyed.get? entries (.text name)

/-- What was stored as fields of a record comes back as the same fields. -/
theorem storedFields_entriesOf (fields : Fields) : storedFields (entriesOf fields) = fields := by
  simp [storedFields, entriesOf, Label.fieldName, Function.comp_def]

/-- Check that one setting is there and of a kind that it may have. -/
def checkKind (entries : Entries) (key : String) (allowed : List Kind) :
    Except SettingsFault Unit :=
  match named? entries key with
  | none => .error (.missingKey key)
  | some value =>
    if allowed.any value.kind.passesFor then .ok ()
    else .error (.wrongKind key allowed value.kind)

/-- The whole number that a setting counts for; zero if it counts for none. -/
def wholeNumber (entries : Entries) (key : String) : Int :=
  ((named? entries key).bind Value.wholeNumber?).getD 0

/-- Check the settings that must be positive, and the delay. -/
def checkRanges (entries : Entries) : Except SettingsFault Unit := do
  if wholeNumber entries "max_steps" ≤ 0 then throw .stepsNotPositive
  if wholeNumber entries "tape_window" ≤ 0 then throw .windowNotPositive
  if ((named? entries "step_delay").map Value.isBelowZero).getD false then throw .delayNegative

/-- Check entries: first the kinds in order, then the ranges. -/
def check (entries : Entries) : Except SettingsFault Unit := do
  settingKinds.forM fun (key, allowed) => checkKind entries key allowed
  checkRanges entries

end Settings

/-- Settings that were checked. -/
structure Settings where
  entries : Settings.Entries
  accepted : Settings.check entries = .ok ()

namespace Settings

/-- Entries as settings, if they pass the check. -/
def ofEntries (entries : Entries) : Except SettingsFault Settings :=
  match checked : check entries with
  | .ok () => .ok ⟨entries, checked⟩
  | .error fault => .error fault

/-- The settings of a session that has no file of them. -/
def defaultEntries : Entries :=
  [(.text "max_steps", .integer 10000),
   (.text "step_delay", .float (Number.Binary64.ofDecimal false 2 (-1))),
   (.text "tape_window", .integer 10),
   (.text "write_blank", .bool false),
   (.text "show_history", .bool false),
   (.text "machines_directory", .text "machines/"),
   (.text "output_directory", .text "logs/"),
   (.text "log_file_prefix", .text "turingtape_")]

/-- The default settings. -/
def defaults : Settings where
  entries := defaultEntries
  accepted := rfl

/-- The truth value of a setting. -/
def switch (entries : Entries) (key : String) : Bool :=
  match named? entries key with
  | some (.bool value) => value
  | _ => false

/-- The text of a setting. -/
def word (entries : Entries) (key : String) : String :=
  match named? entries key with
  | some (.text value) => value
  | _ => ""

/-- The number of steps after which a run is cut off. -/
def maxSteps (settings : Settings) : Nat :=
  (wholeNumber settings.entries "max_steps").toNat

/-- The time between the steps of a run, in seconds. -/
def stepDelay (settings : Settings) : Value :=
  (named? settings.entries "step_delay").getD .null

/-- The number of cells that are drawn on each side of the head. -/
def tapeWindow (settings : Settings) : Nat :=
  (wholeNumber settings.entries "tape_window").toNat

/-- Whether rules may write the blank. -/
def writeBlank (settings : Settings) : Bool :=
  switch settings.entries "write_blank"

/-- Whether steps are recorded. -/
def keepHistory (settings : Settings) : Bool :=
  switch settings.entries "show_history"

/-- Where machine files are looked for. -/
def machinesDirectory (settings : Settings) : String :=
  word settings.entries "machines_directory"

/-- Where journals are kept. -/
def outputDirectory (settings : Settings) : String :=
  word settings.entries "output_directory"

/-- What the name of the main journal begins with. -/
def journalPrefix (settings : Settings) : String :=
  word settings.entries "log_file_prefix"

/-- Settings with other values under some labels. -/
def with? (changes : Entries) (settings : Settings) : Except SettingsFault Settings :=
  ofEntries (Keyed.merge settings.entries changes)

/-- The report of settings that were read at a moment. -/
def report (moment : Moment) (settings : Settings) : List String :=
  ("[" ++ moment.stamp ++ "] Loaded config:") ::
    settings.entries.map fun (label, value) =>
      "  " ++ label.shown ++ ": " ++ value.display

end Settings

end TapeLab
