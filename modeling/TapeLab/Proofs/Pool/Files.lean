import TapeLab.Proofs.Pool.Books

/-!
# The files of a pool run

A pool run reads machines and lists of machines, and it writes its two books, its list of
machines that did not end, and its journal.  It changes no other file and loses no
directory (`run_changesOnly`), however it ends.
-/

namespace TapeLab.Pool

open Fallible Json Workspace

/-- The state after its workspace was used. -/
def State.withWorkspace (workspace : Workspace) (state : State) : State :=
  { state with workspace }

/-- A pool run uses its workspace as the operation does, and nothing else of its state. -/
theorem run_onWorkspace {α : Type} (operation : Storage α) (state : State) :
    (onWorkspace operation).run state =
      ((operation.run state.workspace).1,
        state.withWorkspace (operation.run state.workspace).2) :=
  rfl

/-- A pool run that goes on from another workspace uses that one. -/
theorem run_onWorkspace_withWorkspace {α : Type} (operation : Storage α)
    (workspace : Workspace) (state : State) :
    (onWorkspace operation).run (state.withWorkspace workspace) =
      ((operation.run workspace).1, state.withWorkspace (operation.run workspace).2) :=
  rfl

/-- A part of a run that only reads ends as reading does and leaves the state as it is. -/
theorem run_onWorkspace_of_reads {α : Type} {operation : Storage α} {result : Except Fault α}
    (reads : Relates Eq operation) (state : State)
    (read : (operation.run state.workspace).1 = result) :
    (onWorkspace operation).run state = (result, state) := by
  rw [run_onWorkspace, run_snd_of_reads reads, read]
  rfl

/-- What is said comes last. -/
theorem run_say (notice : Notice) (state : State) :
    (say notice).run state =
      (.ok (), { state with notices := state.notices ++ [notice] }) :=
  rfl

/-- The files that a plan's journal is kept in. -/
def Plan.journalFiles (plan : Plan) : List String :=
  match plan.journal with
  | some journal => Journal.routedStatuses.map journal.statusFile
  | none => []

/-- The files of a plan that are not books are apart from the books. -/
structure Plan.Apart (plan : Plan) (workspace : Workspace) : Prop where
  longRunners : ApartFromBooks plan workspace plan.longRunners
  journal : ∀ path ∈ plan.journalFiles,
    workspace.placeOf plan.resultsFile ≠ workspace.placeOf path

variable {plan : Plan} {workspace : Workspace}

/-- A journal's files are never the checkpoint. -/
theorem Plan.Apart.journal_apart (apart : plan.Apart workspace) {path : String}
    (member : path ∈ plan.journalFiles) : ApartFromBooks plan workspace path := by
  refine ⟨apart.journal path member, ?_⟩
  simp only [Plan.journalFiles] at member
  split at member
  · next journal _ =>
    obtain ⟨status, -, rfl⟩ := List.mem_map.mp member
    have suffix : EndsIn 'l' ".jsonl" := rfl
    have ends : EndsIn 'l' (journal.statusFile status) :=
      Path.endsIn_joinText (suffix.append _) journal.directory
    exact placeOf_ne_of_endsIn (endsIn_checkpointFile plan) ends (by decide) (by decide)
      (by decide) workspace
  · cases member

/-- Apartness depends on the current directory alone. -/
theorem Plan.Apart.congr {after : Workspace} (apart : plan.Apart workspace)
    (current : after.current = workspace.current) : plan.Apart after := by
  refine ⟨⟨?_, ?_⟩, ?_⟩
  · simpa only [placeOf_congr current] using apart.longRunners.results
  · simpa only [placeOf_congr current] using apart.longRunners.checkpoint
  · simpa only [placeOf_congr current] using apart.journal

/-- Adding to a file changes that file alone. -/
theorem append_changesOnly (path text : String) :
    Relates (ChangesOnly [path]) (Workspace.append path text) :=
  rewrite_changesOnly path _

/-- Appending records changes the results file alone. -/
theorem appendResults_changesOnly (plan : Plan) (batch : List RunRecord) :
    Relates (ChangesOnly [plan.resultsFile]) (appendResults plan batch) :=
  Relates.forM fun record _ => append_changesOnly plan.resultsFile (Journal.line record.value)

/-- Routing records to the journal changes the journal's files alone. -/
theorem journalResults_changesOnly (plan : Plan) (batch : List RunRecord) :
    Relates (ChangesOnly plan.journalFiles) (journalResults plan batch) := by
  have addAll : ∀ path entries, path ∈ plan.journalFiles →
      Relates (ChangesOnly plan.journalFiles) (Journal.addAll path entries) := by
    intro path entries member
    have single : ∀ before after, ChangesOnly [path] before after →
        ChangesOnly plan.journalFiles before after :=
      fun _ _ changes => changes.mono (by simpa using member)
    refine ((rewrite_changesOnly path id).mono single).bind fun _ => Relates.forM fun entry _ => ?_
    exact (append_changesOnly path _).mono single
  unfold journalResults
  split
  · next journal found =>
    have routed : ∀ status, status ∈ Journal.routedStatuses →
        journal.statusFile status ∈ plan.journalFiles := by
      intro status member
      simp only [Plan.journalFiles, found]
      exact List.mem_map_of_mem member
    simp only [Journal.logByStatus, Value.elements?]
    split
    · refine Relates.forM fun status member => ?_
      dsimp only
      split
      · exact Relates.pure _
      · exact addAll _ _ (routed status member)
    · exact Relates.throw _
  · exact Relates.pure _

/-- Running the machine of a path changes nothing. -/
theorem outcome_reads (plan : Plan) (path : String) : Relates Eq (outcome plan path) := by
  unfold outcome
  split
  · exact (MachineFile.read_reads path none).bind fun definition => Relates.pure _
  · refine (MachineFile.read_reads path none).bind fun definition => ?_
    split
    · exact Relates.pure _
    · exact Relates.throw _

/-- Listing a pool changes nothing. -/
theorem members_reads (pool : String) : Relates Eq (members pool) := by
  refine (isDirectory_reads _).bind fun directory => ?_
  split
  · refine Relates.bind ?_ fun paths => Relates.pure _
    refine (isDirectory_reads _).bind fun directory => ?_
    split
    · exact (listFiles_reads _).bind fun names => Relates.pure _
    · exact Relates.pure _
  · exact (readText_reads _).bind fun text => Relates.pure _

/-- Loading a checkpoint changes nothing. -/
theorem loadCompleted_reads (plan : Plan) : Relates Eq (loadCompleted plan) := by
  refine (look_reads _).bind fun found => ?_
  cases found with
  | none => exact Relates.pure _
  | some entry =>
      exact (readText_reads _).bind fun text => Relates.liftExcept _

/-- Adding to the list of machines that did not end changes that list alone. -/
theorem promote_changesOnly (plan : Plan) (path : String) :
    Relates (ChangesOnly [plan.longRunners]) (promote plan path) := by
  refine ((makeDirectories_changesOnly _).mono fun _ _ changes => ?_).bind fun _ => ?_
  · exact changes.mono (List.nil_subset _)
  · exact (rewrite_changesOnly _ _).bind fun _ => append_changesOnly _ _

/-- The files that a pool run may write. -/
def Plan.files (plan : Plan) : List String :=
  plan.resultsFile :: plan.checkpointFile :: plan.longRunners :: plan.journalFiles

theorem Plan.resultsFile_mem_files (plan : Plan) : plan.resultsFile ∈ plan.files :=
  List.mem_cons_self

theorem Plan.checkpointFile_mem_files (plan : Plan) : plan.checkpointFile ∈ plan.files :=
  List.mem_cons_of_mem _ List.mem_cons_self

theorem Plan.longRunners_mem_files (plan : Plan) : plan.longRunners ∈ plan.files :=
  List.mem_cons_of_mem _ (List.mem_cons_of_mem _ List.mem_cons_self)

/-- From one state to another only some files changed. -/
def State.ChangesOnly (paths : List String) (before after : State) : Prop :=
  Workspace.ChangesOnly paths before.workspace after.workspace

instance (paths : List String) : IsPreorder State (State.ChangesOnly paths) where
  refl := fun state => .refl paths state.workspace
  trans := fun _ _ _ first second => first.trans second

/-- What was changed only in some files was changed only in those and others. -/
theorem State.ChangesOnly.mono {paths more : List String} {before after : State}
    (changes : State.ChangesOnly paths before after) (covered : paths ⊆ more) :
    State.ChangesOnly more before after :=
  Workspace.ChangesOnly.mono changes covered

/-- A use of the workspace changes what the operation changes. -/
theorem onWorkspace_changesOnly {α : Type} {operation : Storage α} {paths more : List String}
    (changes : Relates (ChangesOnly paths) operation) (covered : paths ⊆ more) :
    Relates (State.ChangesOnly more) (onWorkspace operation) :=
  fun state => (changes state.workspace).mono covered

/-- Reading is a use of the workspace that changes nothing. -/
theorem onWorkspace_reads {α : Type} {operation : Storage α} {paths : List String}
    (reads : Relates Eq operation) : Relates (State.ChangesOnly paths) (onWorkspace operation) := by
  intro state
  rw [run_onWorkspace, run_snd_of_reads reads]
  exact .refl paths state.workspace

/-- What a pool run notes outside its workspace changes no file. -/
theorem modify_changesOnly {paths : List String} {change : State → State}
    (workspace : ∀ state, (change state).workspace = state.workspace) :
    Relates (State.ChangesOnly paths) (modify change : Run Unit) := by
  intro state
  have same : Workspace.ChangesOnly paths state.workspace (change state).workspace := by
    rw [workspace state]
    exact .refl paths state.workspace
  exact same

/-- Saying something changes no file. -/
theorem say_changesOnly (paths : List String) (notice : Notice) :
    Relates (State.ChangesOnly paths) (say notice) :=
  modify_changesOnly fun _ => rfl

/-- Running a machine for a batch changes the list of machines that did not end alone. -/
theorem simulate_changesOnly (plan : Plan) (path : String) :
    Relates (State.ChangesOnly [plan.longRunners]) (simulate plan path) := by
  have complete : Relates (State.ChangesOnly [plan.longRunners]) (complete path) := by
    refine Relates.bind Relates.get fun state => ?_
    exact (Relates.liftExcept _).bind fun completed => modify_changesOnly fun _ => rfl
  have promoted := onWorkspace_changesOnly (promote_changesOnly plan path)
    (List.Subset.refl [plan.longRunners])
  refine (onWorkspace_reads (outcome_reads plan path)).bind fun found => ?_
  obtain ⟨definition, final⟩ := found
  cases final with
  | none => exact (say_changesOnly _ _).bind fun _ => complete
  | some config =>
      refine Relates.bind (modify_changesOnly (by exact fun _ => rfl)) fun _ => ?_
      dsimp only
      split
      · exact promoted.bind fun _ => complete
      · exact complete

/-- Attempting a machine changes the list of machines that did not end alone. -/
theorem attempt_changesOnly (plan : Plan) (path : String) :
    Relates (State.ChangesOnly [plan.longRunners]) (attempt plan path) := by
  refine Relates.bind ?_ fun _ => modify_changesOnly fun _ => rfl
  refine (simulate_changesOnly plan path).tryCatch fun fault => ?_
  split
  · exact say_changesOnly _ _
  · exact Relates.throw fault

/-- Gathering a batch changes the list of machines that did not end alone. -/
theorem gather_changesOnly (plan : Plan) (number : Nat) (paths : List String) :
    Relates (State.ChangesOnly [plan.longRunners]) (gather plan number paths) := by
  refine (say_changesOnly _ _).bind fun _ => ?_
  refine Relates.bind (modify_changesOnly (by exact fun _ => rfl)) fun _ => ?_
  refine Relates.bind (modify_changesOnly (by exact fun _ => rfl)) fun _ => ?_
  exact Relates.forM fun path _ => attempt_changesOnly plan path

/-- Storing a batch changes the books and the journal alone. -/
theorem storeBatch_changesOnly (plan : Plan) :
    Relates (State.ChangesOnly plan.files) (storeBatch plan) := by
  have save : ∀ completed,
      Relates (ChangesOnly [plan.checkpointFile]) (saveCompleted plan completed) :=
    fun completed => (rewrite_changesOnly _ _).bind fun _ => append_changesOnly _ _
  refine Relates.bind Relates.get fun state => ?_
  refine (onWorkspace_changesOnly (appendResults_changesOnly plan _) ?_).bind fun _ => ?_
  · simp [Plan.files]
  refine (onWorkspace_changesOnly (journalResults_changesOnly plan _) ?_).bind fun _ => ?_
  · intro path member
    simp [Plan.files, member]
  exact onWorkspace_changesOnly (save _) (by simp [Plan.files])

/-- Running a batch changes a plan's own files alone. -/
theorem runBatch_changesOnly (plan : Plan) (number : Nat) (paths : List String) :
    Relates (State.ChangesOnly plan.files) (runBatch plan number paths) := by
  have listed : [plan.longRunners] ⊆ plan.files := by simp [Plan.files]
  have gathers := (gather_changesOnly plan number paths).mono
    fun _ _ changes => changes.mono listed
  refine gathers.bind fun _ => (storeBatch_changesOnly plan).bind fun _ => ?_
  refine (say_changesOnly _ _).bind fun _ => ?_
  exact Relates.bind Relates.get fun state => Relates.pure _

/-- Running batches changes a plan's own files alone. -/
theorem runBatches_changesOnly (plan : Plan) (number : Nat) (batches : List (List String)) :
    Relates (State.ChangesOnly plan.files) (runBatches plan number batches) := by
  induction batches generalizing number with
  | nil => exact Relates.pure []
  | cons paths rest inductionHypothesis =>
      refine (runBatch_changesOnly plan number paths).bind fun records => ?_
      exact (inductionHypothesis (number + 1)).bind fun later => Relates.pure _

/-- Beginning a pool run changes the results file alone. -/
theorem prepare_changesOnly (plan : Plan) :
    Relates (State.ChangesOnly [plan.resultsFile]) (prepare plan) := by
  refine (onWorkspace_changesOnly (makeDirectories_changesOnly _) (List.nil_subset _)).bind
    fun _ => ?_
  refine (onWorkspace_reads (members_reads _)).bind fun paths => ?_
  refine (onWorkspace_reads (loadCompleted_reads plan)).bind fun completed => ?_
  refine Relates.bind (modify_changesOnly (by exact fun _ => rfl)) fun _ => ?_
  refine (Relates.liftExcept _).bind fun pending => ?_
  refine (say_changesOnly _ _).bind fun _ => ?_
  exact (onWorkspace_changesOnly (rewrite_changesOnly _ _) (List.Subset.refl _)).bind fun _ =>
    Relates.pure pending

/-- A pool run changes its own files alone, and no directory is lost, however it ends. -/
theorem run_changesOnly (plan : Plan) : Relates (State.ChangesOnly plan.files) (run plan) := by
  refine Relates.bind ?_ fun pending => ?_
  · exact (prepare_changesOnly plan).mono
      fun _ _ changes => changes.mono (by simp [Plan.files])
  refine (Relates.liftExcept _).bind fun size => ?_
  refine (runBatches_changesOnly plan 1 _).bind fun records => ?_
  exact (say_changesOnly _ _).bind fun _ => Relates.pure records

end TapeLab.Pool
