import TapeLab.Pool.Reference
import TapeLab.Proofs.Json.Depth
import TapeLab.Proofs.Json.PlainText
import TapeLab.Proofs.Workspace.FileName
import TapeLab.Proofs.Workspace.Reading

/-!
# The books of a pool

A pool keeps two books: the results file with a record on each line, and the checkpoint
with the paths that are completed.  `recorded` and `checkpointed` are what the two tell,
read as any reader of the files would.  `Books` says what the files hold, and `recorded_eq`
and `checkpointed_eq` that this is what is read back.
-/

namespace TapeLab.Pool

open Fallible Json Workspace

/-- How the line of a record begins. -/
def recordStart : List Char :=
  '\x7b' :: (writtenText "machine" ++ [':', ' ', '"'])

/-- The machine that a line of the results file tells of. -/
def machineOf? (line : List Char) : Option String :=
  if recordStart.isPrefixOf line then
    (quotedText? line.length (line.drop recordStart.length)).map fun parts =>
      String.ofList parts.1
  else none

/-- The paths with a record in the results file, one for each record. -/
def recorded (plan : Plan) (workspace : Workspace) : List String :=
  match ((readText plan.resultsFile).run workspace).1 with
  | .ok text => (Text.feedLines text.toList).filterMap machineOf?
  | .error _ => []

/-- The paths that the checkpoint lists as completed. -/
def checkpointed (plan : Plan) (workspace : Workspace) : List String :=
  match ((loadCompleted plan).run workspace).1 with
  | .ok (.list items) => items.filterMap fun
    | .text path => some path
    | _ => none
  | _ => []

/-- What a checkpoint file can hold. -/
inductive Checkpoint where
  /-- There is no such file. -/
  | absent
  /-- The paths that are completed. -/
  | saved (paths : List String)
  /-- Nothing, since the file was begun anew and then not written. -/
  | emptied

namespace Checkpoint

/-- The completed paths that a checkpoint tells. -/
def paths : Checkpoint → List String
  | saved paths => paths
  | _ => []

/-- Completed paths as a stored value. -/
def listed (paths : List String) : Value :=
  .list (paths.map .text)

/-- The bytes of the checkpoint file, if there is one. -/
def bytes? : Checkpoint → Option ByteArray
  | absent => none
  | saved paths => some (Text.encode (Value.record [(completedKey, listed paths)]).indented)
  | emptied => some ByteArray.empty

end Checkpoint

/-- The results file holds exactly some records, and the checkpoint file what is said
of it. -/
structure Books (plan : Plan) (records : List RunRecord) (checkpoint : Checkpoint)
    (workspace : Workspace) : Prop where
  results : ∃ bytes?, workspace.Shows plan.resultsFile bytes? ∧
    bytes?.getD ByteArray.empty = Text.encode (recordLines records)
  checkpoint : workspace.Shows plan.checkpointFile checkpoint.bytes?

/-- The first field of a record is its machine. -/
theorem compact_eq (record : RunRecord) :
    ∃ rest, record.value.compact.toList =
      recordStart ++ (record.machine.toList.flatMap writtenChar ++ '"' :: rest) := by
  obtain ⟨others, fields⟩ : ∃ others,
      record.value = .record (("machine", .text record.machine) :: others) := ⟨_, rfl⟩
  refine ⟨writtenFields .compact 1 others ++ ['\x7d'], ?_⟩
  rw [Value.compact, String.toList_ofList, fields]
  simp [written, writtenText, recordStart, Layout.compact]

/-- The machine of a record is read back from its line. -/
theorem machineOf?_compact (record : RunRecord) :
    machineOf? record.value.compact.toList = some record.machine := by
  obtain ⟨rest, line⟩ := compact_eq record
  have short := length_le_flatMap record.machine.toList
  rw [line, machineOf?, if_pos (List.isPrefixOf_iff_prefix.mpr (List.prefix_append _ _)),
    List.drop_left, quotedText?_flatMap, Option.map_some, String.ofList_toList]
  rw [List.length_append, List.length_append, List.length_cons]
  omega

/-- The line of a record is one line. -/
theorem feed_notMem_compact (value : Value) : '\n' ∉ value.compact.toList := by
  intro member
  exact absurd (isPlain_of_mem_compact value member) (by decide)

/-- The lines of records, character by character. -/
theorem toList_recordLines (records : List RunRecord) :
    (recordLines records).toList =
      (records.map fun record => record.value.compact.toList).flatMap fun line =>
        line ++ ['\n'] := by
  have feed : "\n".toList = ['\n'] := rfl
  simp only [recordLines, Journal.line, String.toList_join, List.flatMap_map,
    String.toList_append, feed]

/-- Lines after lines. -/
theorem recordLines_append (first second : List RunRecord) :
    recordLines (first ++ second) = recordLines first ++ recordLines second := by
  simp only [recordLines, List.map_append, String.join_append]

/-- Every record has a line. -/
theorem eq_nil_of_recordLines {records : List RunRecord} (empty : recordLines records = "") :
    records = [] := by
  cases records with
  | nil => rfl
  | cons record rest =>
      have chars := congrArg String.toList empty
      rw [toList_recordLines] at chars
      simp at chars

/-- The lines of records have no returns. -/
theorem return_notMem_recordLines (records : List RunRecord) :
    '\r' ∉ (recordLines records).toList := by
  intro member
  rw [toList_recordLines] at member
  obtain ⟨line, inside, here⟩ := List.mem_flatMap.mp member
  obtain ⟨record, -, rfl⟩ := List.mem_map.mp inside
  rcases List.mem_append.mp here with mark | feed
  · exact absurd (isPlain_of_mem_compact record.value mark) (by decide)
  · cases List.mem_singleton.mp feed

/-- The machines of records are read back from their lines. -/
theorem filterMap_machineOf?_recordLines (records : List RunRecord) :
    (Text.feedLines (recordLines records).toList).filterMap machineOf? =
      records.map RunRecord.machine := by
  have read : machineOf? ∘ (fun record : RunRecord => record.value.compact.toList) =
      some ∘ RunRecord.machine := by
    ext record
    simp [machineOf?_compact]
  have blank : [[]].filterMap machineOf? = [] := rfl
  rw [toList_recordLines, Text.feedLines_flatMap]
  · rw [List.filterMap_append, List.filterMap_map, read, blank, List.append_nil,
      List.filterMap_eq_map]
  · intro line member
    obtain ⟨record, -, rfl⟩ := List.mem_map.mp member
    exact feed_notMem_compact record.value

section Reading

variable {plan : Plan} {records : List RunRecord} {checkpoint : Checkpoint}
  {workspace : Workspace}

/-- The machines of records are read from a file that holds their lines. -/
theorem recorded_of_shows
    (shows : workspace.Shows plan.resultsFile (some (Text.encode (recordLines records)))) :
    recorded plan workspace = records.map RunRecord.machine := by
  have read := readText_of_shows shows
  rw [Text.foldReturns_of_no_return (return_notMem_recordLines records),
    String.ofList_toList] at read
  have machines := filterMap_machineOf?_recordLines records
  unfold recorded
  rw [read]
  exact machines

/-- A results file tells the machines of its records. -/
theorem Books.recorded_eq (books : Books plan records checkpoint workspace) :
    recorded plan workspace = records.map RunRecord.machine := by
  obtain ⟨bytes?, shows, holds⟩ := books.results
  cases bytes? with
  | some bytes =>
      have same : bytes = Text.encode (recordLines records) := holds
      rw [same] at shows
      exact recorded_of_shows shows
  | none =>
      obtain ⟨fault, fails⟩ := readText_of_shows_none shows
      have nothing : Text.encode "" = ByteArray.empty := rfl
      rw [Option.getD_none, ← nothing] at holds
      have same := congrArg Text.decode holds
      rw [Text.decode_encode, Text.decode_encode, Except.ok.injEq] at same
      unfold recorded
      rw [fails, eq_nil_of_recordLines same.symm]
      exact List.map_nil.symm

/-- A checkpoint is loaded as what was saved, if that can be read back. -/
theorem loadCompleted_of_shows {items : List Value}
    (each : ∀ item ∈ items, Restorable item)
    (shallow : (Value.record [(completedKey, .list items)]).depth ≤ usualRoom)
    (shows : workspace.Shows plan.checkpointFile
      (some (Text.encode (Value.record [(completedKey, .list items)]).indented))) :
    (loadCompleted plan).run workspace = (.ok (.list items), workspace) := by
  have text : '\r' ∉ (Value.record [(completedKey, .list items)]).indented.toList := by
    intro member
    rcases isPlain_or_feed_of_mem_indented _ member with plain | feed
    · exact absurd plain (by decide)
    · exact absurd feed (by decide)
  have restorable : Restorable (.record [(completedKey, .list items)]) := by
    refine .record (by simp) fun field member => ?_
    rw [List.mem_singleton.mp member]
    exact .list each
  have read := readText_of_shows shows
  rw [Text.foldReturns_of_no_return text, String.ofList_toList] at read
  have stored : completedOf plan.checkpointFile
      (Value.record [(completedKey, .list items)]).indented = .ok (.list items) := by
    unfold completedOf Settings.storedValue
    rw [readWithin_indented restorable, ifRoom_of_le shallow]
    rfl
  simp only [loadCompleted, run_bind_ok (look_of_shows shows), run_bind_ok read, stored]
  rfl

/-- Paths are read back. -/
theorem restorable_of_mem_map_text {paths : List String} :
    ∀ item ∈ paths.map Value.text, Restorable item := by
  intro item member
  obtain ⟨path, -, rfl⟩ := List.mem_map.mp member
  exact .text path

/-- With paths added to it a list is no deeper. -/
theorem depthOfItems_append_text (items : List Value) (paths : List String) :
    depthOfItems (items ++ paths.map Value.text) = depthOfItems items := by
  induction items with
  | nil =>
      induction paths with
      | nil => rfl
      | cons path rest inductionHypothesis =>
          have flat : depthOfItems (rest.map Value.text) = 0 := inductionHypothesis
          simp [depthOfItems, Value.depth, flat]
  | cons item rest inductionHypothesis =>
      simp only [List.cons_append, depthOfItems, inductionHypothesis]

/-- A checkpoint of paths is not deep. -/
theorem depth_checkpoint (paths : List String) :
    (Value.record [(completedKey, .list (paths.map Value.text))]).depth ≤ usualRoom := by
  have flat : depthOfItems (paths.map Value.text) = 0 := depthOfItems_append_text [] paths
  simp [Value.depth, depthOfFields, flat, usualRoom]

/-- What was loaded from a checkpoint can be kept in one. -/
theorem depth_of_loadCompleted {completed : Value}
    (loaded : ((loadCompleted plan).run workspace).1 = .ok completed) :
    (Value.record [(completedKey, completed)]).depth ≤ usualRoom := by
  have empty : (Value.record [(completedKey, .list [])]).depth ≤ usualRoom := depth_checkpoint []
  obtain ⟨found, between, -, later⟩ := exists_of_bind_ok loaded
  rw [loadCompleted, later] at loaded
  cases found with
  | none =>
      cases loaded
      exact empty
  | some entry =>
      obtain ⟨text, after, -, read⟩ := exists_of_bind_ok loaded
      rw [read, run_liftExcept] at loaded
      unfold completedOf at loaded
      split at loaded
      · cases loaded
      · rename_i fields stored
        have shallow : depthOfFields fields + 1 ≤ usualRoom :=
          depth_of_readWithin (mapError_eq_ok_iff.mp stored)
        rw [← Except.ok.inj loaded]
        cases kept : Keyed.get? fields completedKey with
        | none => exact empty
        | some value =>
            have inside := depth_le_of_get? kept
            simp only [Option.getD_some, Value.depth, depthOfFields, Nat.max_zero]
            omega
      · cases loaded

/-- A saved checkpoint is loaded as the paths that were saved. -/
theorem loadCompleted_saved {paths : List String}
    (shows : workspace.Shows plan.checkpointFile (Checkpoint.saved paths).bytes?) :
    (loadCompleted plan).run workspace = (.ok (Checkpoint.listed paths), workspace) :=
  loadCompleted_of_shows restorable_of_mem_map_text (depth_checkpoint paths) shows

/-- Without a checkpoint there is nothing to load, unless loading fails. -/
theorem loadCompleted_absent
    (shows : workspace.Shows plan.checkpointFile Checkpoint.absent.bytes?) :
    (loadCompleted plan).run workspace = (.ok (Checkpoint.listed []), workspace) ∨
      ∃ fault, (loadCompleted plan).run workspace = (.error fault, workspace) := by
  obtain ⟨fault, fails⟩ := readText_of_shows_none shows
  have same := run_snd_of_reads (look_reads plan.checkpointFile) workspace
  cases looked : (look plan.checkpointFile).run workspace with
  | mk result after =>
      obtain rfl : after = workspace := by rw [looked] at same; exact same
      cases result with
      | error fault => exact Or.inr ⟨fault, by rw [loadCompleted, run_bind_error looked]⟩
      | ok found =>
          cases found with
          | none => exact Or.inl (by rw [loadCompleted, run_bind_ok looked]; rfl)
          | some entry =>
              refine Or.inr ⟨fault, ?_⟩
              rw [loadCompleted, run_bind_ok looked]
              exact run_bind_error fails

/-- A checkpoint with nothing in it cannot be loaded. -/
theorem loadCompleted_emptied
    (shows : workspace.Shows plan.checkpointFile Checkpoint.emptied.bytes?) :
    (loadCompleted plan).run workspace = (.error (.data .malformed), workspace) := by
  have nothing : Text.encode "" = ByteArray.empty := rfl
  rw [Checkpoint.bytes?, ← nothing] at shows
  have read := readText_of_shows shows
  simp only [loadCompleted, run_bind_ok (look_of_shows shows), run_bind_ok read]
  rfl

/-- What is loaded is what the checkpoint tells; where loading fails it tells nothing. -/
theorem loadCompleted_outcome
    (shows : workspace.Shows plan.checkpointFile checkpoint.bytes?) :
    (loadCompleted plan).run workspace =
        (.ok (Checkpoint.listed checkpoint.paths), workspace) ∨
      checkpoint.paths = [] ∧
        ∃ fault, (loadCompleted plan).run workspace = (.error fault, workspace) := by
  cases checkpoint with
  | absent =>
      rcases loadCompleted_absent shows with nothing | fails
      · exact Or.inl nothing
      · exact Or.inr ⟨rfl, fails⟩
  | saved paths => exact Or.inl (loadCompleted_saved shows)
  | emptied => exact Or.inr ⟨rfl, _, loadCompleted_emptied shows⟩

/-- A checkpoint tells the paths that were saved. -/
theorem Books.checkpointed_eq (books : Books plan records checkpoint workspace) :
    checkpointed plan workspace = checkpoint.paths := by
  have texts : ∀ paths : List String,
      ((paths.map Value.text).filterMap fun
        | .text path => some path
        | _ => none) = paths := by
    intro paths
    rw [List.filterMap_map]
    exact List.filterMap_some
  unfold checkpointed
  rcases loadCompleted_outcome books.checkpoint with loaded | ⟨nothing, fault, fails⟩
  · rw [loaded]
    exact texts checkpoint.paths
  · rw [fails, nothing]

/-- The name of every results file ends in the same letter. -/
theorem endsIn_resultsFile (plan : Plan) : EndsIn 'l' plan.resultsFile :=
  have resultsSuffix : EndsIn 'l' ".jsonl" := rfl
  Path.endsIn_join (resultsSuffix.append plan.output) (by decide) (by decide) plan.folder

/-- The name of every checkpoint file ends in another letter. -/
theorem endsIn_checkpointFile (plan : Plan) : EndsIn 'n' plan.checkpointFile :=
  have checkpointSuffix : EndsIn 'n' "_checkpoint.json" := rfl
  Path.endsIn_join (checkpointSuffix.append plan.output) (by decide) (by decide)
    plan.folder

/-- The two books of a pool are two files. -/
theorem resultsFile_apart (plan : Plan) (workspace : Workspace) :
    workspace.placeOf plan.resultsFile ≠ workspace.placeOf plan.checkpointFile :=
  placeOf_ne_of_endsIn (endsIn_resultsFile plan) (endsIn_checkpointFile plan) (by decide)
    (by decide) (by decide) workspace

/-- A file apart from both books. -/
structure ApartFromBooks (plan : Plan) (workspace : Workspace) (path : String) : Prop where
  results : workspace.placeOf plan.resultsFile ≠ workspace.placeOf path
  checkpoint : workspace.placeOf plan.checkpointFile ≠ workspace.placeOf path

/-- Changes to other files leave the books as they are. -/
theorem Books.of_changesOnly {paths : List String} {after : Workspace}
    (books : Books plan records checkpoint workspace)
    (changes : ChangesOnly paths workspace after)
    (apart : ∀ path ∈ paths, ApartFromBooks plan workspace path) :
    Books plan records checkpoint after := by
  obtain ⟨bytes?, shows, holds⟩ := books.results
  refine ⟨⟨bytes?, shows.of_changesOnly changes ?_, holds⟩,
    books.checkpoint.of_changesOnly changes ?_⟩
  · exact fun path member => (apart path member).results
  · exact fun path member => (apart path member).checkpoint

end Reading

end TapeLab.Pool
