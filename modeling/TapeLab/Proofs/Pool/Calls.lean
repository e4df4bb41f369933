import TapeLab.Proofs.Pool.Batches

/-!
# Calls of the pool runner

A pool is run again and again, each time from what the last call left (`calls`).  Whatever
the storage refuses and wherever a call ends, it lets the results file grow by records of
pending paths, one of each at most and none of a path that it reported; and whether every
recorded path is still in the checkpoint depends on how its batches were stored
(`Call.settled`).
-/

namespace TapeLab.Pool

open Fallible Json Workspace

/-- Listing a pool at the beginning of a call, with the directory of its results made. -/
def listing (plan : Plan) : Storage (List String) := do
  makeDirectories plan.folder
  members plan.pool

/-- The paths that a pool names when it is run in a workspace. -/
def namedPaths (plan : Plan) (workspace : Workspace) : List String :=
  ((listing plan).run workspace).1.toOption.getD []

/-- The paths that are not among the completed ones are pending. -/
theorem pendingOf_listed (done paths : List String) :
    pendingOf (Checkpoint.listed done) paths = .ok (paths.filter fun path => path ∉ done) := by
  induction paths with
  | nil => rfl
  | cons path rest inductionHypothesis =>
      have found : isCompleted (Checkpoint.listed done) path = .ok (decide (path ∈ done)) := by
        have same : (fun other => isPath path (.text other)) = fun other => other == path := rfl
        simp only [isCompleted, Checkpoint.listed, List.any_map, Function.comp_def, same]
        rw [List.any_beq']
        simp
      simp only [pendingOf, found, inductionHypothesis, bind, Except.bind, pure, Except.pure]
      by_cases member : path ∈ done
      · simp [member]
      · simp [member]

/-- How the beginning of a call can end. -/
inductive Prepared (plan : Plan) (records : List RunRecord) (checkpoint : Checkpoint)
    (workspace : Workspace) : Prop where
  /-- What the checkpoint tells is completed, and the other paths of the pool are pending. -/
  | ready (pending : List String) (after : State)
      (ended : (prepare plan).run { workspace } = (.ok pending, after))
      (books : Books plan records checkpoint after.workspace)
      (listed : after.completed = Checkpoint.listed checkpoint.paths)
      (named : pending = (namedPaths plan workspace).filter fun path => path ∉ checkpoint.paths)
      (quiet : Quiet after.notices)
  /-- A fault ends the call, and the books are as they were. -/
  | failed (fault : Fault) (after : State)
      (ended : (prepare plan).run { workspace } = (.error fault, after))
      (books : Books plan records checkpoint after.workspace) (quiet : Quiet after.notices)

/-- The rest of a call's beginning, once the pool is listed. -/
def prepareListed (plan : Plan) (paths : List String) : Run (List String) := do
  let completed ← onWorkspace (loadCompleted plan)
  modify fun state => { state with completed }
  let pending ← liftExcept ((pendingOf completed paths).mapError Fault.data)
  say (.loaded paths.length pending.length)
  onWorkspace (touch plan.resultsFile)
  return pending

/-- Once the pool is listed, a call begins by loading the checkpoint. -/
theorem prepareListed_outcome {plan : Plan} {records : List RunRecord} {checkpoint : Checkpoint}
    {workspace : Workspace} (paths : List String)
    (books : Books plan records checkpoint workspace) :
    (∃ fault after, (prepareListed plan paths).run { workspace } = (.error fault, after) ∧
        Books plan records checkpoint after.workspace ∧ Quiet after.notices) ∨
      ∃ after, (prepareListed plan paths).run { workspace } =
          (.ok (paths.filter fun path => path ∉ checkpoint.paths), after) ∧
        Books plan records checkpoint after.workspace ∧
        after.completed = Checkpoint.listed checkpoint.paths ∧ Quiet after.notices := by
  let start : State := { workspace }
  have loading := run_onWorkspace (loadCompleted plan) start
  rcases loadCompleted_outcome books.checkpoint with loaded | ⟨-, fault, fails⟩
  · rw [show start.workspace = workspace from rfl, loaded] at loading
    let pending := paths.filter fun path => path ∉ checkpoint.paths
    let told : State :=
      { workspace, completed := Checkpoint.listed checkpoint.paths,
        notices := [.loaded paths.length pending.length] }
    have quiet : Quiet told.notices := .singleton (by simp)
    have lifted : ∀ state : State, (liftExcept ((pendingOf (Checkpoint.listed checkpoint.paths)
        paths).mapError Fault.data) : Run (List String)).run state = (.ok pending, state) := by
      intro state
      rw [pendingOf_listed]
      exact run_liftExcept _ state
    have touching := run_onWorkspace (touch plan.resultsFile) told
    have outcome := rewrite_outcome plan.resultsFile id workspace
    rw [show told.workspace = workspace from rfl,
      show touch plan.resultsFile = rewrite plan.resultsFile id from rfl] at touching
    rw [prepareListed, run_bind_ok loading, run_bind_ok (run_modify _ _), run_bind_ok (lifted _),
      run_bind_ok (run_say _ _)]
    generalize (rewrite plan.resultsFile id).run workspace = ended at touching outcome
    obtain ⟨result, after⟩ := ended
    rcases books.of_resultsWritten outcome rfl with ⟨rfl, kept⟩ | ⟨⟨fault, rfl⟩, kept⟩
    · refine Or.inr ⟨told.withWorkspace after, ?_, kept, rfl, quiet⟩
      exact run_bind_ok touching
    · refine Or.inl ⟨fault, told.withWorkspace after, ?_, kept, quiet⟩
      exact run_bind_error touching
  · rw [show start.workspace = workspace from rfl, fails] at loading
    exact Or.inl ⟨fault, start, run_bind_error loading, books, .nil⟩

/-- A call begins in one of these ways. -/
theorem prepare_outcome {plan : Plan} {records : List RunRecord} {checkpoint : Checkpoint}
    {workspace : Workspace} (books : Books plan records checkpoint workspace) :
    Prepared plan records checkpoint workspace := by
  let start : State := { workspace }
  have making := run_onWorkspace (makeDirectories plan.folder) start
  have changes := makeDirectories_changesOnly plan.folder workspace
  cases made : (makeDirectories plan.folder).run workspace with
  | mk result between =>
      rw [show start.workspace = workspace from rfl, made] at making
      rw [made] at changes
      have madeBooks := books.of_changesOnly changes (by simp)
      cases result with
      | error fault =>
          exact .failed fault (start.withWorkspace between) (run_bind_error making) madeBooks .nil
      | ok _ =>
          have listed := run_onWorkspace_withWorkspace (members plan.pool) between start
          rw [run_snd_of_reads (members_reads plan.pool)] at listed
          have begun : (prepare plan).run start = ExceptT.run (do
              let paths ← onWorkspace (members plan.pool)
              prepareListed plan paths) (start.withWorkspace between) := run_bind_ok making
          cases found : ((members plan.pool).run between).1 with
          | error fault =>
              rw [found] at listed
              rw [run_bind_error listed] at begun
              exact .failed fault _ begun madeBooks .nil
          | ok paths =>
              have names : namedPaths plan workspace = paths := by
                rw [namedPaths, listing, run_bind_ok made, found]
                rfl
              rw [found] at listed
              rw [run_bind_ok listed] at begun
              rcases prepareListed_outcome paths madeBooks with
                ⟨fault, after, ended, kept, quiet⟩ | ⟨after, ended, kept, completed, quiet⟩
              · exact .failed fault after (begun.trans ended) kept quiet
              · exact .ready _ after (begun.trans ended) kept completed (by rw [names]) quiet

/-- A call of the pool runner: its plan and the workspace in which it begins. -/
structure Call where
  plan : Plan
  before : Workspace

namespace Call

/-- What comes of a call. -/
def ended (call : Call) : Except Fault (List RunRecord) × State :=
  (run call.plan).run { workspace := call.before }

/-- The state that a call leaves, whether it returned or raised. -/
def after (call : Call) : State :=
  call.ended.2

/-- The paths that the pool names. -/
def named (call : Call) : List String :=
  namedPaths call.plan call.before

/-- What comes of a call's beginning. -/
def prepared (call : Call) : Except Fault (List String) × State :=
  (prepare call.plan).run { workspace := call.before }

/-- The batches that a call comes to, in order. -/
def batches (call : Call) : List Batch :=
  match call.prepared with
  | (.ok pending, state) =>
    match sizeOfBatches call.plan with
    | .ok size => batchesFrom call.plan 1 (Pool.batches size pending) state
    | .error _ => []
  | (.error _, _) => []

end Call

/-- Calls with some plans, each in the workspace that the one before left. -/
def calls : List Plan → Workspace → List Call
  | [], _ => []
  | plan :: rest, workspace =>
    let call : Call := ⟨plan, workspace⟩
    call :: calls rest call.after.workspace

/-- Batches are cut from the paths in order. -/
theorem flatten_batches_sublist (size : Nat) (paths : List String) :
    (batches size paths).flatten.Sublist paths := by
  fun_induction batches size paths with
  | case1 => exact List.Sublist.refl _
  | case2 first rest => exact List.nil_sublist _
  | case3 first rest sized inductionHypothesis =>
      rw [List.flatten_cons, List.cons_append]
      refine List.Sublist.cons_cons first ?_
      have cut := (List.Sublist.refl (rest.take (size - 1))).append inductionHypothesis
      rwa [List.take_append_drop] at cut

/-- What is only said before and after a part of a run adds nothing to the books. -/
theorem Grown.between {plan : Plan} {records fresh : List RunRecord} {next : Checkpoint}
    {paths : List String} {start before after final : State} {early late : List Notice}
    (grown : Grown plan records fresh next paths before after)
    (begun : before.notices = start.notices ++ early) (earlyQuiet : Quiet early)
    (workspace : final.workspace = after.workspace)
    (ended : final.notices = after.notices ++ late) (lateQuiet : Quiet late) :
    Grown plan records fresh next paths start final := by
  obtain ⟨said, notices, reported⟩ := grown.notices
  refine ⟨?_, grown.own, early ++ said ++ late, ?_, fun path fault member => ?_⟩
  · rw [workspace]
    exact grown.books
  · rw [ended, notices, begun]
    simp
  · rcases List.mem_append.mp member with earlier | later
    · rcases List.mem_append.mp earlier with first | second
      · exact absurd first (earlyQuiet path fault)
      · exact reported path fault second
    · exact absurd later (lateQuiet path fault)

/-- A call lets the results file grow by records of pending paths, and every recorded path
stays in the checkpoint just if each batch is stored soundly. -/
def Call.Settled (call : Call) (records : List RunRecord) (checkpoint : Checkpoint) : Prop :=
  ∃ fresh next,
    Grown call.plan records fresh next (call.named.filter fun path => path ∉ checkpoint.paths)
        { workspace := call.before } call.after ∧
      Accounted records checkpoint.paths fresh next call.batches

section Settling

variable {call : Call} {records : List RunRecord} {checkpoint : Checkpoint}

/-- A call that ends before its first batch leaves the books as they were. -/
theorem Call.settled_of_fault {fault : Fault} {after : State}
    (ran : call.ended = (.error fault, after)) (none : call.batches = [])
    (books : Books call.plan records checkpoint after.workspace) (quiet : Quiet after.notices) :
    call.Settled records checkpoint := by
  have final : call.after = after := by rw [Call.after, ran]
  refine ⟨[], checkpoint, ?_, ?_⟩
  · rw [final]
    exact .nothing _ books (List.nil_append _).symm quiet
  · rw [none]
    exact .nothing

/-- The rest of a call, once it has begun. -/
def finish (plan : Plan) (size : Nat) (pending : List String) : Run (List RunRecord) := do
  let records ← runBatches plan 1 (batches size pending)
  say .finished
  return records

/-- Apart from its batches the rest of a call only says something. -/
theorem finish_outcome (plan : Plan) (size : Nat) (pending : List String) (state : State) :
    ∃ late, Quiet late ∧
      ((finish plan size pending).run state).2.workspace =
        ((runBatches plan 1 (batches size pending)).run state).2.workspace ∧
      ((finish plan size pending).run state).2.notices =
        ((runBatches plan 1 (batches size pending)).run state).2.notices ++ late := by
  unfold finish
  cases batched : (runBatches plan 1 (batches size pending)).run state with
  | mk result after =>
      cases result with
      | error fault =>
          rw [run_bind_error batched]
          exact ⟨[], .nil, rfl, (List.append_nil _).symm⟩
      | ok records =>
          rw [run_bind_ok batched, run_bind_ok (run_say _ _), run_pure]
          exact ⟨[.finished], .singleton (by simp), rfl, rfl⟩

/-- A call that begins runs the batches of what is pending. -/
theorem Call.settled_of_pending {size : Nat} {pending : List String} {begun : State}
    (ran : call.ended = (finish call.plan size pending).run begun)
    (batched : call.batches = batchesFrom call.plan 1 (Pool.batches size pending) begun)
    (books : Books call.plan records checkpoint begun.workspace)
    (apart : call.plan.Apart begun.workspace) (distinct : call.named.Nodup)
    (listed : begun.completed = Checkpoint.listed checkpoint.paths)
    (named : pending = call.named.filter fun path => path ∉ checkpoint.paths)
    (quiet : Quiet begun.notices)
    (promoted : ∀ batch ∈ call.batches, ∀ path before, (path, before) ∈ batch.attempts →
      promotionFails batch.plan path before = false) :
    call.Settled records checkpoint := by
  have sublist : (Pool.batches size pending).flatten.Sublist
      (call.named.filter fun path => path ∉ checkpoint.paths) :=
    named ▸ flatten_batches_sublist size pending
  have untold : ∀ path ∈ (Pool.batches size pending).flatten, path ∉ checkpoint.paths := by
    intro path member
    simpa using (List.mem_filter.mp (sublist.subset member)).2
  rw [batched] at promoted
  obtain ⟨fresh, next, grown, accounted⟩ := runBatches_settled books apart listed
    (sublist.nodup (distinct.filter _)) untold promoted
  obtain ⟨late, lateQuiet, workspace, notices⟩ := finish_outcome call.plan size pending begun
  rw [← ran, ← Call.after] at workspace notices
  let start : State := { workspace := call.before }
  have told : begun.notices = start.notices ++ begun.notices := (List.nil_append _).symm
  have whole := (grown.of_sublist sublist).between told quiet workspace notices lateQuiet
  rw [← batched] at accounted
  exact ⟨fresh, next, whole, accounted⟩

end Settling

/-- Every call is settled, unless a promotion fails in it. -/
theorem Call.settled (call : Call) {records : List RunRecord} {checkpoint : Checkpoint}
    (books : Books call.plan records checkpoint call.before) (apart : call.plan.Apart call.before)
    (distinct : call.named.Nodup)
    (promoted : ∀ batch ∈ call.batches, ∀ path before, (path, before) ∈ batch.attempts →
      promotionFails batch.plan path before = false) :
    call.Settled records checkpoint := by
  cases prepare_outcome books with
  | failed fault after ended kept quiet =>
      have prepared : call.prepared = (.error fault, after) := ended
      have none : call.batches = [] := by
        unfold Call.batches
        rw [prepared]
      exact Call.settled_of_fault (run_bind_error ended) none kept quiet
  | ready pending begun ended kept listed named quiet =>
      have prepared : call.prepared = (.ok pending, begun) := ended
      have changes := (prepare_changesOnly call.plan { workspace := call.before }).current
      rw [ended] at changes
      cases sized : sizeOfBatches call.plan with
      | error fault =>
          have none : call.batches = [] := by
            unfold Call.batches
            rw [prepared, sized]
          have lifted : (liftExcept (sizeOfBatches call.plan) : Run Nat).run begun =
              (.error fault, begun) := by rw [sized, run_liftExcept]
          have ran : call.ended = (.error fault, begun) :=
            (run_bind_ok ended).trans (run_bind_error lifted)
          exact Call.settled_of_fault ran none kept quiet
      | ok size =>
          have batched : call.batches =
              batchesFrom call.plan 1 (Pool.batches size pending) begun := by
            unfold Call.batches
            rw [prepared, sized]
          have lifted : (liftExcept (sizeOfBatches call.plan) : Run Nat).run begun =
              (.ok size, begun) := by rw [sized, run_liftExcept]
          have ran : call.ended = (finish call.plan size pending).run begun :=
            (run_bind_ok ended).trans (run_bind_ok lifted)
          exact Call.settled_of_pending ran batched kept (apart.congr changes) distinct listed
            named quiet promoted

end TapeLab.Pool
