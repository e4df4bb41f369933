import TapeLab.Proofs.Pool.Files

/-!
# Attempting one machine

What running a machine for a batch does to the state of a run, in each way in which it can end,
and what an attempt makes of that.  What is known of batches rests on these equations.
-/

namespace TapeLab.Pool

open Fallible Json Workspace

variable {plan : Plan} {path : String} {items : List Value} {before after : State}
  {definition : Definition} {config : Config} {fault : Fault}

/-- The state with a record more in its batch. -/
def State.withRecord (record : RunRecord) (state : State) : State :=
  { state with batch := state.batch ++ [record] }

/-- The state with a notice more. -/
def State.withNotice (notice : Notice) (state : State) : State :=
  { state with notices := state.notices ++ [notice] }

/-- A path is added to the list of completed ones. -/
theorem run_complete (listed : before.completed = .list items) (path : String) :
    (complete path).run before =
      (.ok (), { before with completed := .list (items ++ [.text path]) }) := by
  simp only [complete, run_bind_ok (run_get before), listed, addCompleted]
  rfl

/-- A machine that cannot be run leaves the state as it is. -/
theorem run_simulate_of_error
    (fails : ((outcome plan path).run before.workspace).1 = .error fault) :
    (simulate plan path).run before = (.error fault, before) :=
  run_bind_error (run_onWorkspace_of_reads (outcome_reads plan path) before fails)

section Found

variable (listed : before.completed = .list items)

include listed

/-- A machine without rules is skipped, and completed. -/
theorem run_simulate_of_ruleless
    (found : ((outcome plan path).run before.workspace).1 = .ok (definition, none)) :
    (simulate plan path).run before =
      (.ok (), { before.withNotice (.ruleless path) with
        completed := .list (items ++ [.text path]) }) := by
  have ran := run_onWorkspace_of_reads (outcome_reads plan path) before found
  rw [simulate, run_bind_ok ran]
  dsimp only
  rw [run_bind_ok (run_say _ _)]
  exact @run_complete items (before.withNotice (.ruleless path)) listed path

variable (found : ((outcome plan path).run before.workspace).1 = .ok (definition, some config))

include found

/-- A machine that ended is recorded and completed. -/
theorem run_simulate_of_ended (ended : (config.status == .running) = false) :
    (simulate plan path).run before =
      (.ok (), { before.withRecord (RunRecord.ofRun path definition config plan.moment) with
        completed := .list (items ++ [.text path]) }) := by
  have ran := run_onWorkspace_of_reads (outcome_reads plan path) before found
  rw [simulate, run_bind_ok ran]
  have keeps : (keep (RunRecord.ofRun path definition config plan.moment)).run before =
      (.ok (), before.withRecord (RunRecord.ofRun path definition config plan.moment)) := rfl
  dsimp only
  rw [run_bind_ok keeps, ended]
  exact @run_complete items
    (before.withRecord (RunRecord.ofRun path definition config plan.moment)) listed path

/-- A machine that did not end is recorded, and completed if it can be promoted. -/
theorem run_simulate_of_running (running : (config.status == .running) = true) :
    let kept := before.withRecord (RunRecord.ofRun path definition config plan.moment)
    (simulate plan path).run before =
      match (promote plan path).run before.workspace with
      | (.ok _, workspace) =>
        (.ok (), { kept.withWorkspace workspace with
          completed := .list (items ++ [.text path]) })
      | (.error fault, workspace) => (.error fault, kept.withWorkspace workspace) := by
  intro kept
  have ran := run_onWorkspace_of_reads (outcome_reads plan path) before found
  have promotes := run_onWorkspace (promote plan path) kept
  have keeps : (keep (RunRecord.ofRun path definition config plan.moment)).run before =
      (.ok (), kept) := rfl
  rw [simulate, run_bind_ok ran]
  dsimp only
  rw [running, run_bind_ok keeps, if_pos rfl]
  cases ended : (promote plan path).run before.workspace with
  | mk result workspace =>
      rw [show kept.workspace = before.workspace from rfl, ended] at promotes
      cases result with
      | ok _ =>
          rw [run_bind_ok promotes]
          exact @run_complete items (kept.withWorkspace workspace) listed path
      | error fault => exact run_bind_error promotes

end Found

/-- After a machine was run the progress advances. -/
theorem run_attempt_of_ok (ran : (simulate plan path).run before = (.ok (), after)) :
    (attempt plan path).run before =
      (.ok (), { after with progress := advanceLast after.progress }) := by
  rw [attempt, run_bind, run_tryCatch, ran]
  rfl

/-- A machine that could not be run because of a file is reported, and the progress advances.
Every other fault ends the run. -/
theorem run_attempt_of_error (failed : (simulate plan path).run before = (.error fault, after)) :
    (attempt plan path).run before =
      if fault.concernsFile then
        (.ok (), { after.withNotice (.failed path fault) with
          progress := advanceLast after.progress })
      else (.error fault, after) := by
  rw [attempt, run_bind, run_tryCatch, failed]
  dsimp only
  by_cases concerns : fault.concernsFile = true
  · rw [if_pos concerns, if_pos concerns]
    rfl
  · rw [if_neg concerns, if_neg concerns]
    rfl

end TapeLab.Pool
