import TapeLab.Proofs.Pool.Files

/-!
# Storing a batch

Storing appends the records of a batch to the results file, routes them to the journal
and then saves the checkpoint, and it can break off at any of these writes.  `Stored`
lists what the books can hold afterwards: all of the batch and the new checkpoint, a part
of the batch and the old checkpoint, or all of the batch and an emptied checkpoint.
-/

namespace TapeLab.Pool

open Fallible Json Workspace

variable {plan : Plan} {records : List RunRecord} {checkpoint : Checkpoint}
  {workspace : Workspace}

/-- Writing the results file leaves the checkpoint as it is. -/
theorem Books.of_resultsWritten (books : Books plan records checkpoint workspace)
    {made : ByteArray → ByteArray} {next : List RunRecord} {after : Workspace}
    {result : Except Fault Unit}
    (rewritten : Rewritten plan.resultsFile made workspace result after)
    (written : made (Text.encode (recordLines records)) = Text.encode (recordLines next)) :
    (result = .ok () ∧ Books plan next checkpoint after) ∨
      ((∃ fault, result = .error fault) ∧ Books plan records checkpoint after) := by
  obtain ⟨bytes?, shows, holds⟩ := books.results
  have kept := books.checkpoint.of_changesOnly rewritten.changesOnly fun path member => by
    rw [List.mem_singleton.mp member]
    exact (resultsFile_apart plan workspace).symm
  rcases shows.of_rewritten rewritten with ⟨succeeds, shown⟩ | ⟨fails, unwritten⟩
  · refine Or.inl ⟨succeeds, ⟨_, shown, ?_⟩, kept⟩
    rw [Option.getD_some, holds, written]
  · exact Or.inr ⟨fails, ⟨bytes?, unwritten, holds⟩, kept⟩

/-- Records are appended one by one: all of them, or a first part of them when the
appending fails. -/
theorem appendResults_outcome (batch : List RunRecord)
    (books : Books plan records checkpoint workspace) :
    (∃ after, (appendResults plan batch).run workspace = (.ok (), after) ∧
        Books plan (records ++ batch) checkpoint after) ∨
      ∃ fault after part rest, (appendResults plan batch).run workspace = (.error fault, after) ∧
        batch = part ++ rest ∧ Books plan (records ++ part) checkpoint after := by
  induction batch generalizing records workspace with
  | nil => exact Or.inl ⟨workspace, rfl, by simpa using books⟩
  | cons record others inductionHypothesis =>
      have unfolded : appendResults plan (record :: others) = (do
          Workspace.append plan.resultsFile (Journal.line record.value)
          appendResults plan others) := rfl
      have line : Journal.line record.value = recordLines [record] := by
        simp [recordLines]
      have outcome := rewrite_outcome plan.resultsFile
        (fun bytes => bytes ++ Text.encode (recordLines [record])) workspace
      cases ended : (Workspace.append plan.resultsFile (Journal.line record.value)).run
          workspace with
      | mk result after =>
          have same : (rewrite plan.resultsFile
              (fun bytes => bytes ++ Text.encode (recordLines [record]))).run workspace =
              (result, after) := by
            rw [← line]
            exact ended
          rw [same] at outcome
          have written : Text.encode (recordLines records) ++
              Text.encode (recordLines [record]) = Text.encode (recordLines (records ++ [record])) := by
            rw [recordLines_append, Text.encode_append]
          rcases books.of_resultsWritten outcome written with ⟨rfl, grown⟩ | ⟨⟨fault, rfl⟩, kept⟩
          · rw [unfolded, run_bind_ok ended]
            rcases inductionHypothesis grown with ⟨final, succeeds, all⟩ |
              ⟨fault, final, part, rest, fails, cut, some⟩
            · exact Or.inl ⟨final, succeeds, by simpa using all⟩
            · refine Or.inr ⟨fault, final, record :: part, rest, fails, ?_, by simpa using some⟩
              rw [cut, List.cons_append]
          · rw [unfolded, run_bind_error ended]
            exact Or.inr ⟨fault, after, [], record :: others, rfl, rfl, by simpa using kept⟩

/-- Writing the checkpoint file leaves the results file as it is. -/
theorem Books.of_checkpointWritten (books : Books plan records checkpoint workspace)
    {made : ByteArray → ByteArray} {next : Checkpoint} {after : Workspace}
    {result : Except Fault Unit}
    (rewritten : Rewritten plan.checkpointFile made workspace result after)
    (written : some (made (checkpoint.bytes?.getD ByteArray.empty)) = next.bytes?) :
    (result = .ok () ∧ Books plan records next after) ∨
      ((∃ fault, result = .error fault) ∧ Books plan records checkpoint after) := by
  obtain ⟨bytes?, shows, holds⟩ := books.results
  have kept := shows.of_changesOnly rewritten.changesOnly fun path member => by
    rw [List.mem_singleton.mp member]
    exact resultsFile_apart plan workspace
  rcases books.checkpoint.of_rewritten rewritten with ⟨succeeds, shown⟩ | ⟨fails, unwritten⟩
  · rw [written] at shown
    exact Or.inl ⟨succeeds, ⟨bytes?, kept, holds⟩, shown⟩
  · exact Or.inr ⟨fails, ⟨bytes?, kept, holds⟩, unwritten⟩

/-- A checkpoint is saved, or it stays as it was, or it is left with nothing in it. -/
theorem saveCompleted_outcome (paths : List String)
    (books : Books plan records checkpoint workspace) :
    (∃ after, (saveCompleted plan (Checkpoint.listed paths)).run workspace = (.ok (), after) ∧
        Books plan records (.saved paths) after) ∨
      ∃ fault after,
        (saveCompleted plan (Checkpoint.listed paths)).run workspace = (.error fault, after) ∧
          (Books plan records checkpoint after ∨ Books plan records .emptied after) := by
  have begun := rewrite_outcome plan.checkpointFile (fun _ => ByteArray.empty) workspace
  cases ended : (truncate plan.checkpointFile).run workspace with
  | mk result between =>
      have same : (rewrite plan.checkpointFile (fun _ => ByteArray.empty)).run workspace =
          (result, between) := ended
      rw [same] at begun
      have nothing : some ByteArray.empty = Checkpoint.emptied.bytes? := rfl
      rcases books.of_checkpointWritten begun nothing with
        ⟨rfl, emptied⟩ | ⟨⟨fault, rfl⟩, kept⟩
      · simp only [saveCompleted, run_bind_ok ended]
        have written := rewrite_outcome plan.checkpointFile (fun bytes => bytes ++
          Text.encode (Value.record [(completedKey, Checkpoint.listed paths)]).indented) between
        have whole : some (((Checkpoint.emptied).bytes?.getD ByteArray.empty) ++
            Text.encode (Value.record [(completedKey, Checkpoint.listed paths)]).indented) =
            (Checkpoint.saved paths).bytes? := by
          simp [Checkpoint.bytes?]
        unfold Workspace.append
        generalize (rewrite plan.checkpointFile _).run between = final at written ⊢
        obtain ⟨finalResult, after⟩ := final
        rcases emptied.of_checkpointWritten written whole with ⟨rfl, saved⟩ | ⟨⟨fault, rfl⟩, left⟩
        · exact Or.inl ⟨after, rfl, saved⟩
        · exact Or.inr ⟨fault, after, rfl, Or.inr left⟩
      · simp only [saveCompleted, run_bind_error ended]
        exact Or.inr ⟨fault, between, rfl, Or.inl kept⟩

/-- How storing a batch can end: what came of it, and what the books hold. -/
inductive Stored (plan : Plan) (records : List RunRecord) (checkpoint : Checkpoint)
    (batch : List RunRecord) (paths : List String) : Except Fault Unit → Workspace → Prop where
  /-- All of the batch is recorded, and the checkpoint is saved. -/
  | whole {after : Workspace} (books : Books plan (records ++ batch) (.saved paths) after) :
      Stored plan records checkpoint batch paths (.ok ()) after
  /-- A first part of the batch is recorded, and the checkpoint is as it was. -/
  | cut {after : Workspace} (fault : Fault) (part rest : List RunRecord)
      (parts : batch = part ++ rest) (books : Books plan (records ++ part) checkpoint after) :
      Stored plan records checkpoint batch paths (.error fault) after
  /-- All of the batch is recorded, and the checkpoint is left with nothing in it. -/
  | emptied {after : Workspace} (fault : Fault)
      (books : Books plan (records ++ batch) .emptied after) :
      Stored plan records checkpoint batch paths (.error fault) after

/-- Storing a batch ends in one of these ways, and it touches the workspace alone. -/
theorem storeBatch_outcome {state : State} {paths : List String}
    (completed : state.completed = Checkpoint.listed paths)
    (books : Books plan records checkpoint state.workspace)
    (apart : plan.Apart state.workspace) :
    ∃ result after, (storeBatch plan).run state = (result, state.withWorkspace after) ∧
      Stored plan records checkpoint state.batch paths result after := by
  simp only [storeBatch, run_bind_ok (run_get state), completed]
  have appending := run_onWorkspace (appendResults plan state.batch) state
  have appendChanges := appendResults_changesOnly plan state.batch state.workspace
  rcases appendResults_outcome state.batch books with
    ⟨appended, succeeds, all⟩ | ⟨fault, appended, part, rest, fails, parts, some⟩
  · rw [succeeds] at appending appendChanges
    rw [run_bind_ok appending]
    -- The journal's files are no books, so the books stand as the results left them.
    have appendedApart := apart.congr appendChanges.current
    have afterJournal := all.of_changesOnly (journalResults_changesOnly plan state.batch appended)
      fun path member => appendedApart.journal_apart member
    have journaling :=
      run_onWorkspace_withWorkspace (journalResults plan state.batch) appended state
    generalize (journalResults plan state.batch).run appended = journaled
      at journaling afterJournal
    obtain ⟨result, journaled⟩ := journaled
    cases result with
    | error fault =>
        refine ⟨.error fault, journaled, run_bind_error journaling, ?_⟩
        exact .cut fault state.batch [] (List.append_nil _).symm afterJournal
    | ok done =>
        rw [run_bind_ok journaling]
        have saving := run_onWorkspace_withWorkspace
          (saveCompleted plan (Checkpoint.listed paths)) journaled state
        rcases saveCompleted_outcome paths afterJournal with
          ⟨final, saves, saved⟩ | ⟨fault, final, fails, kept | emptied⟩
        · rw [saves] at saving
          exact ⟨.ok (), final, saving, .whole saved⟩
        · rw [fails] at saving
          exact ⟨.error fault, final, saving,
            .cut fault state.batch [] (List.append_nil _).symm kept⟩
        · rw [fails] at saving
          exact ⟨.error fault, final, saving, .emptied fault emptied⟩
  · rw [fails] at appending
    exact ⟨.error fault, appended, run_bind_error appending, .cut fault part rest parts some⟩

end TapeLab.Pool
