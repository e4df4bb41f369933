import Std.Time.DateTime.Timestamp
import TapeLab.Inspect.Report
import TapeLab.Pool.Run
import TapeLab.Session.Program

/-!
# The command line

The three programs of the laboratory: `inspect` reports on a machine, `pool` runs a
pool of machine files, and anything else is a session.  A program sees the directory
that it is started in; what it changed there is written when it ends, or when it
waits for an answer.
-/

namespace TapeLab.Main

/-- How deep directories are looked into. -/
def depthLimit : Nat := 32

/-- What is in some directory entries, which stand at a place. -/
def gather : Nat → Location → List IO.FS.DirEntry → IO (List (Location × Entry))
  | 0, _, _ => return []
  | _, _, [] => return []
  | depth + 1, place, found :: others => do
    let here := place ++ [found.fileName]
    let inside ← try
        let entries ← found.path.readDir
        let below ← gather depth here entries.toList
        pure ((here, Entry.directory) :: below)
      catch _ =>
        try pure [(here, Entry.file (← IO.FS.readBinFile found.path))]
        catch _ => pure []
    return inside ++ (← gather (depth + 1) place others)

/-- The directory that the program is started in. -/
def workspace : IO Workspace := do
  let directory ← IO.currentDir
  let current := (Path.ofText directory.toString).parts
  return { current, entries := ← gather depthLimit current (← directory.readDir).toList }

/-- Write what was changed in a workspace. -/
def writeBack (before after : Workspace) : IO Unit :=
  after.entries.forM fun (place, entry) => do
    let path := "/" ++ String.intercalate "/" place
    match entry, before.entryAt? place with
    | .directory, none => IO.FS.createDirAll path
    | .file bytes, some (.file old) =>
      unless bytes.toList == old.toList do IO.FS.writeBinFile path bytes
    | .file bytes, none => IO.FS.writeBinFile path bytes
    | _, _ => return

/-- The current moment. -/
def now : IO Moment := do
  let nanoseconds := (← Std.Time.Timestamp.now).toNanosecondsSinceUnixEpoch.val
  return Moment.ofMicroseconds (nanoseconds.toNat / 1000)

/-- Report a fault; the exit code of a program that failed. -/
def failWith (fault : Fault) : IO UInt32 := do
  IO.eprintln fault.message
  return 1

/-- The inspector. -/
def inspect (words : List String) : IO UInt32 := do
  match ((Inspect.run words).run (← workspace)).1 with
  | .ok (.ok report) =>
    IO.print report
    return 0
  | .ok (.error stop) => return UInt32.ofNat stop.code
  | .error fault => failWith fault

/-- The pool runner. -/
def pool (words : List String) : IO UInt32 := do
  let before ← workspace
  let start : Pool.State := { workspace := before }
  let (result, final) := (Pool.runWords words (← now)).run start
  final.messages.forM IO.println
  writeBack before final.workspace
  match result with
  | .ok (.ok ()) => return 0
  | .ok (.error stop) => return UInt32.ofNat stop.code
  | .error fault => failWith fault

/-- The length of a pause in milliseconds. -/
def milliseconds : Json.Value → Nat
  | .integer seconds => 1000 * seconds.toNat
  | .bool true => 1000
  | .float (.finite false significand exponent) =>
    1000 * significand * Number.twoTo exponent.toNat / Number.twoTo (-exponent).toNat
  | _ => 0

/-- Let an event happen on the terminal. -/
def display (event : Console.Event) : IO Unit :=
  match event with
  | .line text => IO.println text
  | .picture text _ => IO.println text
  | .complaint text => IO.println text
  | .pause seconds => IO.sleep (UInt32.ofNat (milliseconds seconds))
  | .question text => do
    IO.print text
    (← IO.getStdout).flush
  | .sheet sheet => do
    sheet.title.forM IO.println
    IO.println (String.intercalate "\t" (sheet.columns.map Console.Column.header))
    sheet.rows.forM fun row => IO.println (String.intercalate "\t" row.cells)

/-- A session that was given some answers.  While it asks for more, one is read and the
session taken up again with all of them; what has been shown is not shown again. -/
partial def converse (words : List String) (moment : Moment) (before : Workspace)
    (answers : List String) (shown : Nat) : IO UInt32 := do
  let start : Session.State := { workspace := before, answers }
  let (result, final) := StateT.run (ExceptT.run (Session.run words moment)) start
  (final.events.toList.drop shown).forM display
  writeBack before final.workspace
  match result with
  | .ok code => return UInt32.ofNat (code.getD 0)
  | .error .answersExhausted => do
    let line ← (← IO.getStdin).getLine
    if line.isEmpty then failWith .answersExhausted
    else
      let answer := if line.endsWith "\n" then (line.dropEnd 1).toString else line
      converse words moment before (answers ++ [answer]) final.events.size
  | .error fault => failWith fault

end TapeLab.Main

/-- The program that the first word names. -/
def main (words : List String) : IO UInt32 := do
  match words with
  | "inspect" :: rest => TapeLab.Main.inspect rest
  | "pool" :: rest => TapeLab.Main.pool rest
  | _ => TapeLab.Main.converse words (← TapeLab.Main.now) (← TapeLab.Main.workspace) [] 0
