import TapeLab.Proofs.Pool.Attempting

/-!
# Gathering a batch

The machines of a batch are attempted one after another.  An attempt completes its path,
with a record or without, or reports it and leaves it pending, or raises a fault that
ends the run (`Attempted`).  One thing can come between: a machine whose record is kept
already is reported when it cannot be promoted (`promotionFails`).  Apart from that a
batch has records only of paths that it completed, one of each, and it reports no path
that it has a record of (`Gathered`).
-/

namespace TapeLab.Pool

open Fallible Json Workspace

/-- Whether a machine did not end, and a file keeps it from being added to the list of
those that did not. -/
def promotionFails (plan : Plan) (path : String) (state : State) : Bool :=
  match ((outcome plan path).run state.workspace).1 with
  | .ok (_, some config) =>
    config.status == .running &&
      match ((promote plan path).run state.workspace).1 with
      | .error fault => fault.concernsFile
      | .ok _ => false
  | _ => false

/-- No machine is reported. -/
def Quiet (notices : List Notice) : Prop :=
  ∀ path fault, Notice.failed path fault ∉ notices

/-- Nothing said reports no machine. -/
theorem Quiet.nil : Quiet [] :=
  fun _ _ => List.not_mem_nil

/-- Nor does a notice of another kind. -/
theorem Quiet.singleton {notice : Notice} (other : ∀ path fault, notice ≠ .failed path fault) :
    Quiet [notice] :=
  fun path fault member => other path fault (List.mem_singleton.mp member).symm

/-- From one state to another a path was completed, with a record of its own at most. -/
structure Completes (path : String) (done : List String) (before after : State) : Prop where
  batch : ∃ records, (records.map RunRecord.machine).Sublist [path] ∧
    after.batch = before.batch ++ records
  notices : ∃ said, Quiet said ∧ after.notices = before.notices ++ said
  listed : after.completed = Checkpoint.listed (done ++ [path])

/-- A path that is added to the list of completed ones comes last. -/
theorem listed_concat (done : List String) (path : String) :
    Checkpoint.listed (done ++ [path]) = .list (done.map Value.text ++ [.text path]) := by
  rw [Checkpoint.listed, List.map_append]
  rfl

/-- How running the machine of a path for a batch can end, where some paths were completed
before. -/
inductive Simulated (plan : Plan) (path : String) (done : List String) (before : State) :
    Except Fault Unit → State → Prop where
  /-- The path is completed. -/
  | completed {after : State} (completes : Completes path done before after) :
      Simulated plan path done before (.ok ()) after
  /-- The machine could not be run. -/
  | unread {after : State} (fault : Fault) (same : after = before) :
      Simulated plan path done before (.error fault) after
  /-- The machine was run, and its record was kept, but it could not be promoted. -/
  | unpromoted {after : State} (fault : Fault) (notices : after.notices = before.notices)
      (fails : fault.concernsFile = true → promotionFails plan path before = true) :
      Simulated plan path done before (.error fault) after

/-- Running the machine of a path ends in one of these ways. -/
theorem simulate_outcome (plan : Plan) (path : String) {done : List String} {before : State}
    (listed : before.completed = Checkpoint.listed done) :
    Simulated plan path done before ((simulate plan path).run before).1
      ((simulate plan path).run before).2 := by
  cases found : ((outcome plan path).run before.workspace).1 with
  | error fault =>
      rw [run_simulate_of_error found]
      exact .unread fault rfl
  | ok value =>
      obtain ⟨definition, final⟩ := value
      cases final with
      | none =>
          rw [run_simulate_of_ruleless listed found]
          have quiet : Quiet [.ruleless path] := .singleton (by simp)
          exact .completed ⟨⟨[], by simp, (List.append_nil _).symm⟩, ⟨[.ruleless path], quiet, rfl⟩,
            (listed_concat done path).symm⟩
      | some config =>
          let record := RunRecord.ofRun path definition config plan.moment
          have completes : ∀ workspace, Completes path done before
              { (before.withRecord record).withWorkspace workspace with
                completed := .list (done.map Value.text ++ [.text path]) } := fun workspace =>
            ⟨⟨[record], List.Sublist.refl _, rfl⟩, ⟨[], .nil, (List.append_nil _).symm⟩,
              (listed_concat done path).symm⟩
          cases running : config.status == .running with
          | false =>
              rw [run_simulate_of_ended listed found running]
              exact .completed (completes before.workspace)
          | true =>
              rw [run_simulate_of_running listed found running]
              cases ended : (promote plan path).run before.workspace with
              | mk result after =>
                  cases result with
                  | ok _ => exact .completed (completes after)
                  | error fault =>
                      refine .unpromoted fault rfl fun concerns => ?_
                      simp only [promotionFails, found, running, ended, concerns, Bool.and_self]

/-- How attempting a machine can end, where some paths were completed before. -/
inductive Attempted (path : String) (done : List String) (before : State) :
    Except Fault Unit → State → Prop where
  /-- The path is completed. -/
  | completed {after : State} (completes : Completes path done before after) :
      Attempted path done before (.ok ()) after
  /-- The path is reported, and stays pending without a record. -/
  | reported {after : State} (fault : Fault) (batch : after.batch = before.batch)
      (notices : after.notices = before.notices ++ [.failed path fault])
      (listed : after.completed = Checkpoint.listed done) :
      Attempted path done before (.ok ()) after
  /-- A fault ends the run. -/
  | raised {after : State} (fault : Fault) (notices : after.notices = before.notices) :
      Attempted path done before (.error fault) after

/-- Attempting a machine ends in one of these ways, unless its promotion fails. -/
theorem attempt_outcome {plan : Plan} {path : String} {done : List String} {before : State}
    (listed : before.completed = Checkpoint.listed done)
    (promoted : promotionFails plan path before = false) :
    Attempted path done before ((attempt plan path).run before).1
      ((attempt plan path).run before).2 := by
  have simulated := simulate_outcome plan path listed
  cases ended : (simulate plan path).run before with
  | mk result after =>
      rw [ended] at simulated
      cases simulated with
      | completed completes =>
          rw [run_attempt_of_ok ended]
          exact .completed ⟨completes.batch, completes.notices, completes.listed⟩
      | unread fault same =>
          obtain rfl : after = before := same
          rw [run_attempt_of_error ended]
          split
          · exact .reported fault rfl rfl listed
          · exact .raised fault rfl
      | unpromoted fault notices fails =>
          have survives : ¬fault.concernsFile = true := by
            intro concerns
            rw [fails concerns] at promoted
            cases promoted
          rw [run_attempt_of_error ended, if_neg survives]
          exact .raised fault notices

/-- The paths of a batch that are attempted, each with the state in which it is. -/
def attempts (plan : Plan) : List String → State → List (String × State)
  | [], _ => []
  | path :: rest, state =>
    (path, state) ::
      match (attempt plan path).run state with
      | (.ok _, after) => attempts plan rest after
      | (.error _, _) => []

/-- How gathering a batch can end, where some paths were completed before. -/
inductive Gathered (paths : List String) (done : List String) (before : State) :
    Except Fault Unit → State → Prop where
  /-- Some paths of the batch are completed, with records of their own; the paths that are
  reported are others. -/
  | whole {after : State} (now : List String) (records : List RunRecord) (said : List Notice)
      (among : now.Sublist paths) (own : (records.map RunRecord.machine).Sublist now)
      (reported : ∀ path fault, .failed path fault ∈ said → path ∈ paths ∧ path ∉ now)
      (batch : after.batch = before.batch ++ records)
      (notices : after.notices = before.notices ++ said)
      (listed : after.completed = Checkpoint.listed (done ++ now)) :
      Gathered paths done before (.ok ()) after
  /-- A fault ends the run; only paths of the batch were reported. -/
  | raised {after : State} (fault : Fault) (said : List Notice)
      (reported : ∀ path fault, .failed path fault ∈ said → path ∈ paths)
      (notices : after.notices = before.notices ++ said) :
      Gathered paths done before (.error fault) after

namespace Gathered

variable {path : String} {paths done : List String} {before between after : State}
  {result : Except Fault Unit}

/-- A path that was completed before the others of its batch. -/
theorem cons_completed (fresh : path ∉ paths) (completes : Completes path done before between)
    (gathered : Gathered paths (done ++ [path]) between result after) :
    Gathered (path :: paths) done before result after := by
  obtain ⟨kept, keptOwn, keptBatch⟩ := completes.batch
  obtain ⟨told, quiet, toldNotices⟩ := completes.notices
  cases gathered with
  | whole now records said among own reported batch notices listed =>
      refine .whole (path :: now) (kept ++ records) (told ++ said) (among.cons_cons path) ?_ ?_ ?_
        ?_ ?_
      · rw [List.map_append]
        exact keptOwn.append own
      · intro other fault member
        rcases List.mem_append.mp member with early | late
        · exact absurd early (quiet other fault)
        · obtain ⟨inside, pending⟩ := reported other fault late
          refine ⟨List.mem_cons_of_mem path inside, fun here => ?_⟩
          rcases List.mem_cons.mp here with rfl | later
          · exact fresh inside
          · exact pending later
      · rw [batch, keptBatch, List.append_assoc]
      · rw [notices, toldNotices, List.append_assoc]
      · rw [listed, List.append_assoc, List.singleton_append]
  | raised fault said reported notices =>
      refine .raised fault (told ++ said) ?_ ?_
      · intro other fault member
        rcases List.mem_append.mp member with early | late
        · exact absurd early (quiet other fault)
        · exact List.mem_cons_of_mem path (reported other fault late)
      · rw [notices, toldNotices, List.append_assoc]

/-- A path that was reported before the others of its batch. -/
theorem cons_reported {cause : Fault} (fresh : path ∉ paths)
    (keptBatch : between.batch = before.batch)
    (toldNotices : between.notices = before.notices ++ [.failed path cause])
    (gathered : Gathered paths done between result after) :
    Gathered (path :: paths) done before result after := by
  cases gathered with
  | whole now records said among own reported batch notices listed =>
      refine .whole now records (.failed path cause :: said) (among.cons path) own ?_ ?_ ?_ listed
      · intro other fault member
        rcases List.mem_cons.mp member with same | late
        · cases same
          exact ⟨List.mem_cons_self, fun here => fresh (among.subset here)⟩
        · obtain ⟨inside, pending⟩ := reported other fault late
          exact ⟨List.mem_cons_of_mem path inside, pending⟩
      · rw [batch, keptBatch]
      · rw [notices, toldNotices, List.append_assoc, List.singleton_append]
  | raised fault said reported notices =>
      refine .raised fault (.failed path cause :: said) ?_ ?_
      · intro other fault member
        rcases List.mem_cons.mp member with same | late
        · cases same
          exact List.mem_cons_self
        · exact List.mem_cons_of_mem path (reported other fault late)
      · rw [notices, toldNotices, List.append_assoc, List.singleton_append]

end Gathered

/-- Attempting the machines of a batch ends in one of these ways, unless a promotion
fails. -/
theorem forM_attempt_outcome {plan : Plan} {paths done : List String} {before : State}
    (distinct : paths.Nodup) (listed : before.completed = Checkpoint.listed done)
    (promoted : ∀ path state, (path, state) ∈ attempts plan paths before →
      promotionFails plan path state = false) :
    Gathered paths done before ((paths.forM (attempt plan)).run before).1
      ((paths.forM (attempt plan)).run before).2 := by
  induction paths generalizing done before with
  | nil =>
      refine .whole [] [] [] (List.Sublist.refl _) (List.Sublist.refl _) ?_ ?_ ?_ ?_
      · intro path fault member
        cases member
      · exact (List.append_nil _).symm
      · exact (List.append_nil _).symm
      · rw [List.append_nil]
        exact listed
  | cons path rest inductionHypothesis =>
      obtain ⟨fresh, distinctRest⟩ := List.nodup_cons.mp distinct
      have first := attempt_outcome listed (promoted path before List.mem_cons_self)
      have unfolded : (path :: rest).forM (attempt plan) = (do
          attempt plan path
          rest.forM (attempt plan)) := rfl
      rw [unfolded]
      simp only [attempts, List.mem_cons] at promoted
      cases ended : (attempt plan path).run before with
      | mk result between =>
          rw [ended] at first promoted
          dsimp only at first promoted
          cases first with
          | completed completes =>
              rw [run_bind_ok ended]
              exact .cons_completed fresh completes <|
                inductionHypothesis distinctRest completes.listed
                  fun path state member => promoted path state (Or.inr member)
          | reported cause batch notices listedStill =>
              rw [run_bind_ok ended]
              exact .cons_reported fresh batch notices <|
                inductionHypothesis distinctRest listedStill
                  fun path state member => promoted path state (Or.inr member)
          | raised fault notices =>
              rw [run_bind_error ended]
              refine .raised fault [] ?_ ?_
              · intro other fault member
                cases member
              · rw [notices, List.append_nil]

end TapeLab.Pool
