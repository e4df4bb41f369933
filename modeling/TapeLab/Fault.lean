import TapeLab.Json.Value
import TapeLab.Machine.Basic
import TapeLab.Text.Utf8

/-!
# Faults

Everything that can keep the laboratory from doing what it was asked, by cause.
The wording of a cause is a function of it, so a caller decides by the cause and
never by the words.
-/

namespace TapeLab

/-- Why a file or directory could not be used. -/
inductive StorageCause where
  | missing
  | isDirectory
  | notDirectory
  | alreadyExists
  | nameTooLong
  | nullInName
  | nestedTooDeep
  | refused
  deriving DecidableEq, Repr

/-- The wording of a cause, without the path. -/
def StorageCause.wording : StorageCause → String
  | .missing => "[Errno 2] No such file or directory"
  | .isDirectory => "[Errno 21] Is a directory"
  | .notDirectory => "[Errno 20] Not a directory"
  | .alreadyExists => "[Errno 17] File exists"
  | .nameTooLong => "[Errno 36] File name too long"
  | .nullInName => "embedded null byte"
  | .nestedTooDeep => "maximum recursion depth exceeded"
  | .refused => "[Errno 5] Input/output error"

/-- A path that could not be used, and why. -/
structure StorageFault where
  cause : StorageCause
  path : String
  deriving DecidableEq, Repr

/-- The report of a path that could not be used. -/
def StorageFault.message (fault : StorageFault) : String :=
  match fault.cause with
  | .nullInName => fault.cause.wording
  | .nestedTooDeep => fault.cause.wording
  | cause => cause.wording ++ ": " ++ Text.quoted fault.path

/-- Why a collection of settings is refused. -/
inductive SettingsFault where
  | missingKey (key : String)
  | wrongKind (key : String) (expected : List Json.Kind) (found : Json.Kind)
  | stepsNotPositive
  | windowNotPositive
  | delayNegative
  deriving DecidableEq, Repr

/-- The kinds that a setting may have, as a report names them. -/
def kindNames : List Json.Kind → String
  | [kind] => kind.name
  | kinds => "(" ++ String.intercalate ", " (kinds.map Json.Kind.name) ++ ")"

/-- The report of refused settings. -/
def SettingsFault.message : SettingsFault → String
  | .missingKey key => "Missing required configuration key: " ++ key
  | .wrongKind key expected found =>
    "Config key '" ++ key ++ "' expected " ++ kindNames expected ++ ", got " ++ found.name ++ "."
  | .stepsNotPositive => "max_steps must be a positive number of steps."
  | .windowNotPositive => "tape_window must be positive."
  | .delayNegative => "step_delay cannot be negative."

/-- Why stored data is not of the form that was expected. -/
inductive DataFault where
  | malformed
  | numeralTooLong
  | entryLength
  | entryKind
  | notRecord
  | notSearchable
  | notExtensible
  deriving DecidableEq, Repr

/-- The wording of a data fault. -/
def DataFault.message : DataFault → String
  | .malformed => "the file is not valid JSON"
  | .numeralTooLong => "a number has too many digits"
  | .entryLength => "an entry is not a pair"
  | .entryKind => "an entry has no usable key"
  | .notRecord => "the data is not a record"
  | .notSearchable => "the data cannot be searched"
  | .notExtensible => "the data cannot be added to"

/-- Everything that can go wrong. -/
inductive Fault where
  | noRules (problems : Nat)
  | machineFileMissing (path : String)
  | settingsFileMissing (path : String)
  | unknownExample (name : String) (known : List String)
  | noMachineNamed
  | valueMissing (option : String)
  | settings (fault : SettingsFault)
  | storage (fault : StorageFault)
  | notUtf8 (fault : Text.Utf8Fault)
  | data (fault : DataFault)
  | batchSizeZero
  | unreadableIndex
  | answersExhausted
  deriving DecidableEq, Repr

namespace Fault

/-- The report of a fault. -/
def message : Fault → String
  | .noRules problems =>
    let plain := "Machine has no transition rules; nothing to run."
    if problems == 0 then plain
    else plain ++ " (" ++ toString problems ++ " lines could not be parsed)"
  | .machineFileMissing path => "Machine file not found at: " ++ path
  | .settingsFileMissing path => "Configuration file not found at: " ++ path
  | .unknownExample name known =>
    "Unknown example '" ++ name ++ "'. Choose one of: " ++ String.intercalate ", " known
  | .noMachineNamed => "You must specify either --machine or --example."
  | .valueMissing option => "no value was given for " ++ option
  | .settings fault => fault.message
  | .storage fault => fault.message
  | .notUtf8 fault => fault.message
  | .data fault => fault.message
  | .batchSizeZero => "the batch size must not be zero"
  | .unreadableIndex => "the index is not a number"
  | .answersExhausted => "no answer is left"

/-- Whether a file could not be reached or written, or its text not decoded: the
faults that a session reports and survives. -/
def concernsFile : Fault → Bool
  | .machineFileMissing _ => true
  | .settingsFileMissing _ => true
  | .storage fault => fault.cause != .nullInName && fault.cause != .nestedTooDeep
  | .notUtf8 _ => true
  | _ => false

/-- Whether a file was looked for and not found. -/
def isMissingFile : Fault → Bool
  | .machineFileMissing _ => true
  | .settingsFileMissing _ => true
  | .storage fault => fault.cause == .missing
  | _ => false

end Fault

end TapeLab
