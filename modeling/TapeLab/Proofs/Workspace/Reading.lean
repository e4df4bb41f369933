import TapeLab.MachineFile
import TapeLab.Proofs.Workspace.Changes

/-!
# Reading from a workspace

Looking, listing and reading leave a workspace exactly as it is, whether or not they
succeed.  A file that holds a text is read as that text.
-/

namespace TapeLab

open Fallible

namespace Workspace

variable {α : Type}

theorem orFail_reads (path : String) (found : Except StorageCause α) :
    Relates Eq (orFail path found) := by
  cases found with
  | error cause => exact Relates.throw _
  | ok value => exact Relates.pure value

theorem look_reads (path : String) : Relates Eq (look path) := by
  refine Relates.bind Relates.get fun workspace => ?_
  split
  · exact Relates.pure _
  · exact Relates.throw _
  · exact Relates.pure _

theorem readBytes_reads (path : String) : Relates Eq (readBytes path) := by
  refine Relates.bind Relates.get fun workspace => ?_
  refine (orFail_reads path _).bind fun entry => ?_
  cases entry with
  | file bytes => exact Relates.pure bytes
  | directory => exact Relates.throw _

theorem readText_reads (path : String) : Relates Eq (readText path) := by
  refine (readBytes_reads path).bind fun bytes => ?_
  split
  · exact Relates.pure _
  · exact Relates.throw _

theorem isDirectory_reads (path : String) : Relates Eq (isDirectory path) := by
  refine (look_reads path).bind fun found => ?_
  split
  · exact Relates.pure _
  · exact Relates.pure _

theorem listFiles_reads (directory : String) : Relates Eq (listFiles directory) := by
  refine Relates.bind Relates.get fun workspace => ?_
  exact (orFail_reads directory _).bind fun place => Relates.pure _

end Workspace

/-- Reading a machine changes nothing. -/
theorem MachineFile.read_reads (path : String) (dialect : Option Dialect) :
    Relates Eq (MachineFile.read path dialect) := by
  refine (Workspace.look_reads _).bind fun found => ?_
  cases found with
  | none => exact Relates.throw _
  | some entry => exact (Workspace.readText_reads _).bind fun text => Relates.pure _

/-- So does listing the machines of a directory. -/
theorem MachineFile.findIn_reads (directory : String) :
    Relates Eq (MachineFile.findIn directory) := by
  refine (Workspace.isDirectory_reads _).bind fun found => ?_
  split
  · exact (Workspace.listFiles_reads _).bind fun names => Relates.pure _
  · exact Relates.pure _

namespace Workspace

variable {α : Type} {path : String} {workspace : Workspace}

/-- What an operation that only reads leaves is what it began in. -/
theorem run_snd_of_reads {operation : Storage α} (reads : Relates Eq operation)
    (workspace : Workspace) : (operation.run workspace).2 = workspace :=
  (reads workspace).symm

/-- What a path shows of a file: what the file holds, or that there is no file. -/
def Shows (path : String) : Option ByteArray → Workspace → Prop
  | none, workspace =>
    ∀ bytes, workspace.entryAt? (workspace.placeOf path) ≠ some (.file bytes)
  | some bytes, workspace =>
    workspace.locate path = .ok (workspace.placeOf path) ∧
      workspace.entryAt? (workspace.placeOf path) = some (.file bytes)

/-- Where nothing stands, no file is shown. -/
theorem shows_none_of_isNone
    (vacant : (workspace.entryAt? (workspace.placeOf path)).isNone = true) :
    workspace.Shows path none := by
  intro bytes stands
  rw [stands] at vacant
  cases vacant

/-- A file is shown that has the bytes that are read. -/
theorem shows_of_readBytes {bytes : ByteArray}
    (read : ((readBytes path).run workspace).1.toOption.map (fun held => held.data.toList) =
      some bytes.data.toList) :
    workspace.Shows path (some bytes) := by
  simp only [readBytes, run_bind_ok (run_get workspace), entry] at read
  cases located : workspace.locate path with
  | error cause =>
      rw [located] at read
      cases read
  | ok place =>
      obtain rfl := eq_placeOf located
      rw [located] at read
      simp only [bind, Except.bind] at read
      cases stands : workspace.entryAt? (workspace.placeOf path) with
      | none =>
          rw [stands] at read
          cases read
      | some entry =>
          rw [stands] at read
          cases entry with
          | directory => cases read
          | file held =>
              have same : held = bytes := ByteArray.ext (Array.toList_inj.mp (Option.some.inj read))
              rw [same] at stands
              exact ⟨located, stands⟩

/-- What a path shows of a file is what its place contains. -/
theorem Shows.contents_eq {found : Option ByteArray} (shows : workspace.Shows path found) :
    workspace.contents (workspace.placeOf path) = found.getD ByteArray.empty := by
  cases found with
  | some bytes => simp only [contents, shows.2, Option.getD_some]
  | none =>
      simp only [contents]
      split
      · next bytes stands => exact absurd stands (shows bytes)
      · rfl

/-- A change to files elsewhere does not change what a path shows. -/
theorem Shows.of_changesOnly {found : Option ByteArray} {paths : List String}
    {after : Workspace} (shows : workspace.Shows path found)
    (changes : ChangesOnly paths workspace after)
    (apart : ∀ other ∈ paths, workspace.placeOf path ≠ workspace.placeOf other) :
    after.Shows path found := by
  have place := placeOf_congr changes.current path
  have same := fun bytes => changes.elsewhere (workspace.placeOf path) bytes apart
  cases found with
  | none =>
      intro bytes stands
      rw [place] at stands
      exact shows bytes ((same bytes).mp stands)
  | some bytes =>
      refine ⟨?_, ?_⟩
      · rw [place]
        exact changes.locate_eq_ok shows.1
      · rw [place]
        exact (same bytes).mpr shows.2

/-- A file that is written shows what was made of it; otherwise it shows what it did. -/
theorem Shows.of_rewritten {found : Option ByteArray} {made : ByteArray → ByteArray}
    {after : Workspace} {result : Except Fault Unit} (shows : workspace.Shows path found)
    (rewritten : Rewritten path made workspace result after) :
    (result = .ok () ∧ after.Shows path (some (made (found.getD ByteArray.empty)))) ∨
      ((∃ fault, result = .error fault) ∧ after.Shows path found) := by
  have changes := rewritten.changesOnly
  cases rewritten with
  | failed fault refusals =>
      have unchanged : ChangesOnly [] workspace { workspace with refusals } :=
        .of_entries rfl rfl
      exact Or.inr ⟨⟨fault, rfl⟩, shows.of_changesOnly unchanged (by simp)⟩
  | done refusals located free =>
      refine Or.inl ⟨rfl, changes.locate_eq_ok located, ?_⟩
      rw [← shows.contents_eq]
      exact (entryAt?_holding free _).trans (if_pos rfl)

/-- A path that shows a file leads to it. -/
theorem entry_of_shows {bytes : ByteArray} (shows : workspace.Shows path (some bytes)) :
    workspace.entry path = .ok (.file bytes) := by
  simp only [entry, shows.1, bind, Except.bind, shows.2]
  rfl

/-- A file that is there is seen. -/
theorem look_of_shows {bytes : ByteArray} (shows : workspace.Shows path (some bytes)) :
    (look path).run workspace = (.ok (some (.file bytes)), workspace) := by
  simp only [look, run_bind, run_get, entry_of_shows shows]
  rfl

/-- A file that holds a text is read as that text. -/
theorem readText_of_shows {text : String}
    (shows : workspace.Shows path (some (Text.encode text))) :
    (readText path).run workspace =
      (.ok (String.ofList (Text.foldReturns text.toList)), workspace) := by
  have found : (orFail path (workspace.entry path)).run workspace =
      (.ok (.file (Text.encode text)), workspace) := by
    rw [entry_of_shows shows]
    rfl
  have bytesRead : (readBytes path).run workspace = (.ok (Text.encode text), workspace) := by
    simp only [readBytes, run_bind_ok (run_get workspace), run_bind_ok found, run_pure]
  simp only [readText, run_bind_ok bytesRead, Text.decode_encode, run_pure]

/-- Where there is no file, no text is read. -/
theorem readText_of_shows_none (shows : workspace.Shows path none) :
    ∃ fault, (readText path).run workspace = (.error fault, workspace) := by
  suffices unread : ∃ fault, (readBytes path).run workspace = (.error fault, workspace) by
    obtain ⟨fault, fails⟩ := unread
    exact ⟨fault, by simp only [readText, run_bind_error fails]⟩
  simp only [readBytes, run_bind_ok (run_get workspace), entry]
  cases located : workspace.locate path with
  | error cause => exact ⟨_, rfl⟩
  | ok place =>
      obtain rfl := eq_placeOf located
      simp only [bind, Except.bind]
      cases stands : workspace.entryAt? (workspace.placeOf path) with
      | none => exact ⟨_, rfl⟩
      | some entry =>
          cases entry with
          | directory => exact ⟨_, rfl⟩
          | file bytes => exact absurd stands (shows bytes)

end Workspace

end TapeLab
