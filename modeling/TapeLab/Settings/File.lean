import TapeLab.Json.Reader
import TapeLab.Json.Writer
import TapeLab.Settings.Basic
import TapeLab.Workspace.Storage

/-!
# Settings in files

A file of settings is laid over the defaults, so it need only hold what differs.  It
is normally a record; a list of pairs, each a list or a text of two, is taken for
the record that they make up.  Data that is nested too deep can neither be written nor
read.
-/

namespace TapeLab

open Json

namespace Settings

/-- The entry that an element of a list stands for. -/
def entryOf (element : Value) : Except DataFault (Label × Value) :=
  match element.elements? with
  | some [name, value] =>
    match Label.ofValue? name with
    | some label => .ok (label, value)
    | none => .error .entryKind
  | some _ => .error .entryLength
  | none => .error .entryKind

/-- The entries that a stored value stands for. -/
def storedEntries : Value → Except DataFault Entries
  | .record fields => .ok (entriesOf fields)
  | value =>
    match value.elements? with
    | some elements => elements.mapM entryOf
    | none => .error .entryKind

/-- The fault of reading data from a path. -/
def readingFault (path : String) : ReadFault → Fault
  | .malformed => .data .malformed
  | .numeralTooLong => .data .numeralTooLong
  | .nestedTooDeep => .storage ⟨.nestedTooDeep, path⟩

/-- The value that a text from a path holds, if it is nested no deeper than there is room
for. -/
def storedValue (room : Nat) (path text : String) : Except Fault Value :=
  (Json.readWithin room text.toList).mapError (readingFault path)

/-- The settings that the text of a file gives. -/
def ofText (room : Nat) (path text : String) : Except Fault Settings := do
  let stored ← storedValue room path text
  let entries ← (storedEntries stored).mapError Fault.data
  (ofEntries (Keyed.merge defaultEntries entries)).mapError Fault.settings

/-- The settings in a file, or the defaults if no file is asked for. -/
def load (source : Option String) (room : Nat := usualRoom) : Storage Settings :=
  match source with
  | none => return defaults
  | some path => do
    if (← get).has path then
      liftExcept (ofText room path (← Workspace.readText path))
    else throw (.settingsFileMissing path)

/-- Write a value to an emptied file.  If it is nested too deep, the part of it before the
depth stays there. -/
def writeValue (room : Nat) (path : String) (value : Value) : Storage Unit :=
  match value.begunIndented? room with
  | none => Workspace.append path value.indented
  | some text => do
    Workspace.append path text
    throw (.storage ⟨.nestedTooDeep, path⟩)

/-- Keep settings in a file, making its directory if there is none. -/
def save (entries : Entries) (path : String) (room : Nat := usualRoom) : Storage Unit := do
  liftExcept ((check entries).mapError Fault.settings)
  let directory := Path.directoryText path
  Workspace.makeDirectoriesAt (if directory.isEmpty then "." else directory)
  Workspace.truncate path
  writeValue room path (Value.record (storedFields entries))

end Settings

end TapeLab
