import TapeLab.Proofs.Pool.Gains
import TapeLab.Proofs.Pool.History

/-!
# Pools without batches

A call of the pool runner in which nothing that is written fails comes to what its pending
machines come to one at a time (`Call.Unbatched`): the records it returns and appends, the
paths it promotes, the entries of the journal and the checkpoint.  The size of the batches
shows nowhere, so it makes no difference (`unbatched_of_unhindered`).
-/

namespace TapeLab.Pool

open Fallible Json Workspace

variable {plan : Plan} {ref : Workspace} {shownPaths : List String}

section Gained

variable {first second : List RunRecord} {before between after : Workspace}

theorem recordsWith_append (status : Status) (first second : List RunRecord) :
    recordsWith status (first ++ second) =
      recordsWith status first ++ recordsWith status second :=
  List.filter_append _ _

/-- Nothing is added for no record. -/
theorem Gained.refl (plan : Plan) (workspace : Workspace) : Gained plan [] workspace workspace where
  results := (grown_empty _).symm
  longRunners := (grown_empty _).symm
  journal := fun _ _ _ => (grown_empty _).symm

/-- Records that are added after others. -/
theorem Gained.trans (gained : Gained plan first before between)
    (later : Gained plan second between after) : Gained plan (first ++ second) before after where
  results := by
    rw [later.results, gained.results, grown_grown, recordLines_append]
  longRunners := by
    rw [later.longRunners, gained.longRunners, grown_grown, promotedLines_append]
  journal := by
    intro journal kept status
    rw [later.journal journal kept, gained.journal journal kept, grown_grown, recordsWith_append,
      recordLines_append]

end Gained

/-- How a part of a run advances, if its paths look the same in some workspace. -/
structure Advances (plan : Plan) (shownPaths paths : List String) (items : List Value)
    (ref : Workspace) (before after : State) : Prop where
  gained : Gained plan (recordsOf (solosFrom plan ref paths)) before.workspace after.workspace
  completed : after.completed =
    .list (items ++ (readPaths (solosFrom plan ref paths)).map Value.text)
  alike : Alike shownPaths (paths.foldl (settle plan) ref) after.workspace

/-- A part of a run that comes after another. -/
theorem Advances.trans {paths more : List String} {items : List Value}
    {before between after : State}
    (advances : Advances plan shownPaths paths items ref before between)
    (later : Advances plan shownPaths more
      (items ++ (readPaths (solosFrom plan ref paths)).map Value.text)
      (paths.foldl (settle plan) ref) between after) :
    Advances plan shownPaths (paths ++ more) items ref before after where
  gained := by
    rw [solosFrom_append, recordsOf_append]
    exact advances.gained.trans later.gained
  completed := by
    rw [later.completed, solosFrom_append, readPaths_append, List.map_append, List.append_assoc]
  alike := by
    rw [List.foldl_append]
    exact later.alike

/-- The files of a plan are at different places, and no machine of some paths is one of them. -/
structure Plan.Clear (plan : Plan) (paths : List String) (workspace : Workspace) : Prop where
  files : plan.Separate workspace
  machines : ∀ path ∈ paths, ∀ file ∈ plan.files,
    workspace.placeOf (shown path) ≠ workspace.placeOf file

/-- Where files are depends on the current directory alone. -/
theorem Plan.Clear.congr {paths : List String} {workspace after : Workspace}
    (clear : plan.Clear paths workspace) (current : after.current = workspace.current) :
    plan.Clear paths after where
  files := by
    have places : plan.files.map after.placeOf = plan.files.map workspace.placeOf :=
      List.map_congr_left fun path _ => placeOf_congr current path
    rw [Plan.Separate, places]
    exact clear.files
  machines := by simpa only [placeOf_congr current] using clear.machines

/-- Changes to the files of a plan do not change what its machines look like. -/
theorem Plan.Clear.alike {paths files : List String} {before after : Workspace}
    (clear : plan.Clear paths before) (covered : files ⊆ plan.files)
    (changes : ChangesOnly files before after) (same : SameDirectories before after) :
    Alike (paths.map shown) before after where
  toSameDirectories := same
  held := by
    intro _ member
    obtain ⟨path, isPath, rfl⟩ := List.mem_map.mp member
    exact changes.held?_eq fun file isFile => clear.machines path isPath file (covered isFile)

instance (plan : Plan) (path : String) (workspace : Workspace) :
    Decidable (Promotable plan path workspace) :=
  inferInstanceAs (Decidable (_ → _))

/-- No file that a batch writes fails to be written. -/
@[mk_iff]
structure Batch.Unhindered (batch : Batch) : Prop where
  promoted : ∀ entry ∈ batch.attempts, Promotable batch.plan entry.1 entry.2.workspace
  stored : batch.stored.1 = .ok ()

instance (batch : Batch) : Decidable batch.Unhindered :=
  decidable_of_iff' _ batch.unhindered_iff

/-- What was gathered and then stored advances the run. -/
theorem Gathers.advances {paths pending : List String} {items : List Value}
    {before begun between after : State}
    (gathered : Gathers plan (paths.map shown) pending items ref begun between)
    (beginning : begun.workspace = before.workspace) (nothing : begun.batch = [])
    (changes : ChangesOnly [plan.longRunners] before.workspace between.workspace)
    (clear : plan.Clear paths before.workspace)
    (stores : Stores plan between.batch between.completed between.workspace after.workspace)
    (storeChanges : ChangesOnly plan.files between.workspace after.workspace)
    (completed : after.completed = between.completed) :
    Advances plan (paths.map shown) pending items ref before after := by
  have records : between.batch = recordsOf (solosFrom plan ref pending) := by
    rw [gathered.batch, nothing, List.nil_append]
  have separate := clear.files
  simp only [Plan.Separate, Plan.files, List.map_cons, List.nodup_cons, List.mem_cons,
    not_or] at separate
  obtain ⟨⟨-, resultsList, -⟩, -, listJournal, -⟩ := separate
  refine ⟨⟨?_, ?_, ?_⟩, completed.trans gathered.completed, ?_⟩
  · rw [stores.results, changes.held?_eq (by simpa using resultsList), records]
  · rw [stores.longRunners, gathered.longRunners, beginning]
  · intro journal kept status
    have place := List.mem_map_of_mem (f := before.workspace.placeOf)
      (statusFile_mem_journalFiles kept status)
    have apart : before.workspace.placeOf (journal.statusFile status) ≠
        before.workspace.placeOf plan.longRunners := fun same => listJournal (same ▸ place)
    rw [stores.journal journal kept, changes.held?_eq (by simpa using apart), records]
  · exact gathered.alike.trans
      ((clear.congr changes.current).alike (List.Subset.refl _) storeChanges stores.same)

section Batch

variable {batch : Batch} {cap : Nat} {paths : List String} {items : List Value}

/-- A batch in which nothing that is written fails is gathered by looking at its machines one
at a time. -/
theorem Batch.gathers (capped : batch.plan.cap = some cap)
    (listed : batch.before.completed = .list items)
    (alike : Alike (paths.map shown) ref batch.before.workspace)
    (covered : batch.paths ⊆ paths) (clear : batch.plan.Clear paths batch.before.workspace)
    (unhindered : batch.Unhindered) :
    batch.gathered.1 = .ok () ∧
      Gathers batch.plan (paths.map shown) batch.paths items ref batch.begun batch.gathered.2 := by
  have looked : ∀ path ∈ batch.paths, shown path ∈ paths.map shown :=
    fun path member => List.mem_map_of_mem (covered member)
  have apart : ∀ other ∈ paths.map shown, batch.begun.workspace.placeOf other ≠
      batch.begun.workspace.placeOf batch.plan.longRunners := by
    intro _ member
    obtain ⟨path, isPath, rfl⟩ := List.mem_map.mp member
    exact clear.machines path isPath _ (Plan.longRunners_mem_files _)
  have begunListed : batch.begun.completed = .list items := listed
  have begunAlike : Alike (paths.map shown) ref batch.begun.workspace := alike
  exact gathers_of_forM_attempt capped begunListed begunAlike looked apart unhindered.promoted

/-- Gathering a batch changes the list of machines that did not end alone. -/
theorem Batch.gathered_changesOnly (batch : Batch) :
    ChangesOnly [batch.plan.longRunners] batch.before.workspace batch.gathered.2.workspace :=
  gather_changesOnly batch.plan batch.number batch.paths batch.before

/-- Storing a batch uses the workspace and nothing else of the state. -/
theorem Batch.stored_eq (batch : Batch) :
    batch.stored.2 = batch.gathered.2.withWorkspace batch.stored.2.workspace := by
  have stored : batch.stored = (onWorkspace (store batch.plan batch.gathered.2.batch
      batch.gathered.2.completed)).run batch.gathered.2 := run_storeBatch batch.plan _
  rw [stored, run_onWorkspace]
  rfl

/-- What storing a batch comes to, when nothing that is written fails. -/
theorem Batch.stores (separate : batch.plan.Separate batch.gathered.2.workspace)
    (succeeds : batch.stored.1 = .ok ()) :
    Stores batch.plan batch.gathered.2.batch batch.gathered.2.completed
      batch.gathered.2.workspace batch.stored.2.workspace := by
  have stored : batch.stored = (onWorkspace (store batch.plan batch.gathered.2.batch
      batch.gathered.2.completed)).run batch.gathered.2 := run_storeBatch batch.plan _
  rw [stored, run_onWorkspace] at succeeds ⊢
  exact stores_of_store separate succeeds

/-- A batch in which nothing that is written fails advances the run by its machines, and saves
the checkpoint. -/
theorem Batch.advances (capped : batch.plan.cap = some cap)
    (listed : batch.before.completed = .list items)
    (alike : Alike (paths.map shown) ref batch.before.workspace)
    (covered : batch.paths ⊆ paths) (clear : batch.plan.Clear paths batch.before.workspace)
    (unhindered : batch.Unhindered) :
    ∃ after, batch.ended =
        (.ok (recordsOf (solosFrom batch.plan ref batch.paths)), after) ∧
      Advances batch.plan (paths.map shown) batch.paths items ref batch.before after ∧
      after.workspace.Shows batch.plan.checkpointFile
        (some (checkpointBytes after.completed)) := by
  obtain ⟨gathers, gathered⟩ := Batch.gathers capped listed alike covered clear unhindered
  have changes := batch.gathered_changesOnly
  have stores := Batch.stores (clear.congr changes.current).files unhindered.stored
  have storeChanges := storeBatch_changesOnly batch.plan batch.gathered.2
  rw [show (storeBatch batch.plan).run batch.gathered.2 = batch.stored from rfl] at storeChanges
  have ended := Batch.ended_of_stored gathers unhindered.stored
  have stored := batch.stored_eq
  generalize batch.stored.2 = final at stores storeChanges ended stored
  have buffer : final.batch = recordsOf (solosFrom batch.plan ref batch.paths) := by
    rw [stored]
    exact gathered.batch
  have completed : final.completed = batch.gathered.2.completed := by rw [stored]; rfl
  rw [buffer] at ended
  refine ⟨_, ended, ?_, ?_⟩
  · exact gathered.advances rfl rfl changes clear stores storeChanges completed
  · have saved := stores.saved
    rw [← completed] at saved
    exact saved

end Batch

/-- A run that looks at no machine does not advance. -/
theorem Advances.refl {items : List Value} {before : State}
    (listed : before.completed = .list items) (alike : Alike shownPaths ref before.workspace) :
    Advances plan shownPaths [] items ref before before where
  gained := .refl plan before.workspace
  completed := listed.trans (congrArg Value.list (List.append_nil _).symm)
  alike := alike

/-- Batches in which nothing that is written fails advance the run by all of their machines, and
the last of them saves the checkpoint. -/
theorem advances_of_runBatches {number cap : Nat} {batches : List (List String)}
    {paths : List String} {items : List Value} {before : State} (capped : plan.cap = some cap)
    (listed : before.completed = .list items)
    (alike : Alike (paths.map shown) ref before.workspace) (covered : batches.flatten ⊆ paths)
    (clear : plan.Clear paths before.workspace)
    (unhindered : ∀ batch ∈ batchesFrom plan number batches before, batch.Unhindered) :
    ∃ after, (runBatches plan number batches).run before =
        (.ok (recordsOf (solosFrom plan ref batches.flatten)), after) ∧
      Advances plan (paths.map shown) batches.flatten items ref before after ∧
      (batches = [] → after = before) ∧
      (batches ≠ [] → after.workspace.Shows plan.checkpointFile
        (some (checkpointBytes after.completed))) := by
  induction batches generalizing number items ref before with
  | nil => exact ⟨before, rfl, .refl listed alike, fun _ => rfl, fun some => absurd rfl some⟩
  | cons pending rest inductionHypothesis =>
      rw [List.flatten_cons] at covered
      let batch : Batch := ⟨plan, number, pending, before⟩
      obtain ⟨between, ended, advances, saved⟩ := @Batch.advances ref batch cap paths items capped
        listed alike (List.append_subset.mp covered).1 clear
        (unhindered batch (by simp [batchesFrom, batch]))
      have ran : (runBatch plan number pending).run before =
          (.ok (recordsOf (solosFrom plan ref pending)), between) := ended
      have current : between.workspace.current = before.workspace.current := by
        have changes := (runBatch_changesOnly plan number pending before).current
        rwa [ran] at changes
      have listing : batchesFrom plan number (pending :: rest) before =
          batch :: batchesFrom plan (number + 1) rest between := by
        simp only [batchesFrom, batch, ended]
      rw [listing] at unhindered
      obtain ⟨after, later, advancesLater, unchanged, savedLater⟩ :=
        inductionHypothesis advances.completed advances.alike
          (List.append_subset.mp covered).2 (clear.congr current)
          fun other member => unhindered other (List.mem_cons_of_mem batch member)
      refine ⟨after, ?_, ?_, ?_, fun _ => ?_⟩
      · rw [runBatches, run_bind_ok ran, run_bind_ok later, List.flatten_cons, solosFrom_append,
          recordsOf_append]
        rfl
      · rw [List.flatten_cons]
        exact advances.trans advancesLater
      · intro none
        cases none
      · cases rest with
        | nil =>
            rw [unchanged rfl]
            exact saved
        | cons next others => exact savedLater (List.cons_ne_nil _ _)

/-- Batches of some size are cut from all of the paths. -/
theorem flatten_batches {size : Nat} (sized : size ≠ 0) (paths : List String) :
    (batches size paths).flatten = paths := by
  fun_induction batches size paths with
  | case1 => rfl
  | case2 first rest none => exact absurd none sized
  | case3 first rest _ inductionHypothesis =>
      rw [List.flatten_cons, inductionHypothesis, List.cons_append, List.take_append_drop]

/-- There is a batch just if there is a path. -/
theorem batches_eq_nil_iff {size : Nat} (sized : size ≠ 0) (paths : List String) :
    batches size paths = [] ↔ paths = [] := by
  cases paths with
  | nil => simp [batches]
  | cons first rest => simp [batches, sized]

/-- The paths that are not among the completed ones, in order. -/
def pendingAmong (items : List Value) (paths : List String) : List String :=
  paths.filter fun path => !items.any (isPath path)

/-- The paths that a list does not tell are pending. -/
theorem pendingOf_list (items : List Value) (paths : List String) :
    pendingOf (.list items) paths = .ok (pendingAmong items paths) := by
  induction paths with
  | nil => rfl
  | cons path rest inductionHypothesis =>
      rw [pendingOf, inductionHypothesis]
      cases told : items.any (isPath path) <;>
        simp [isCompleted, told, pendingAmong, bind, Except.bind, pure, Except.pure]

/-- From one workspace to another the files of a plan gained what some machines came to, and the
checkpoint tells those that could be read after what was completed. -/
structure Leaves (plan : Plan) (items : List Value) (solos : List (String × Solo))
    (before after : Workspace) : Prop where
  /-- The results file, which is made if there is none, gains the lines of the records. -/
  results : after.held? plan.resultsFile =
    some ((before.held? plan.resultsFile).getD ByteArray.empty ++
      Text.encode (recordLines (recordsOf solos)))
  /-- The list of machines that did not end gains the paths of those that did not. -/
  longRunners : after.held? plan.longRunners =
    grown (before.held? plan.longRunners) (promotedLines (recordsOf solos))
  /-- The journal's file for a status gains the lines of the records with that status. -/
  journal : ∀ journal ∈ plan.journal, ∀ status,
    after.held? (journal.statusFile status) =
      grown (before.held? (journal.statusFile status))
        (recordLines (recordsWith status (recordsOf solos)))
  /-- Without machines the checkpoint stays as it is. -/
  unsaved : solos = [] → after.held? plan.checkpointFile = before.held? plan.checkpointFile
  /-- With machines the checkpoint tells what was completed, and after it those that could be
  read. -/
  saved : solos ≠ [] → after.held? plan.checkpointFile =
    some (checkpointBytes (.list (items ++ (readPaths solos).map Value.text)))

/-- The files of a plan are its books, the list of machines that did not end, and those of its
journal. -/
theorem Plan.mem_files {plan : Plan} {file : String} (member : file ∈ plan.files) :
    file = plan.resultsFile ∨ file = plan.checkpointFile ∨ file = plan.longRunners ∨
      ∃ journal ∈ plan.journal, ∃ status, file = Journal.statusFile journal status := by
  simp only [Plan.files, List.mem_cons] at member
  refine member.imp_right (Or.imp_right (Or.imp_right fun inJournal => ?_))
  simp only [Plan.journalFiles] at inJournal
  split at inJournal
  · next journal kept =>
    obtain ⟨status, -, same⟩ := List.mem_map.mp inJournal
    exact ⟨journal, kept, status, same.symm⟩
  · cases inJournal

/-- The same machines leave the same in files that held the same. -/
theorem Leaves.unique {items : List Value} {solos : List (String × Solo)}
    {before after otherBefore otherAfter : Workspace}
    (leaves : Leaves plan items solos before after)
    (other : Leaves plan items solos otherBefore otherAfter)
    (same : ∀ file ∈ plan.files, otherBefore.held? file = before.held? file) :
    ∀ file ∈ plan.files, otherAfter.held? file = after.held? file := by
  intro file member
  have begun := same file member
  rcases Plan.mem_files member with here | here | here | ⟨journal, kept, status, here⟩
  · rw [here] at begun ⊢
    rw [other.results, leaves.results, begun]
  · rw [here] at begun ⊢
    by_cases nothing : solos = []
    · rw [other.unsaved nothing, leaves.unsaved nothing, begun]
    · rw [other.saved nothing, leaves.saved nothing]
  · rw [here] at begun ⊢
    rw [other.longRunners, leaves.longRunners, begun]
  · rw [here] at begun ⊢
    rw [other.journal journal kept, leaves.journal journal kept, begun]

/-- There is something to look at just if there is a path. -/
theorem solosFrom_eq_nil_iff {workspace : Workspace} {paths : List String} :
    solosFrom plan workspace paths = [] ↔ paths = [] := by
  cases paths <;> simp [solosFrom]

namespace Call

/-- The workspace after the directory of the results was made. -/
def opened (call : Call) : Workspace :=
  ((makeDirectories call.plan.folder).run call.before).2

/-- A call of a pool that lists some paths: the directory of the results can be made, and there
are a batch size and a step cap. -/
@[mk_iff]
structure Lists (call : Call) (paths : List String) : Prop where
  folder : ((makeDirectories call.plan.folder).run call.before).1 = .ok ()
  listed : ((members call.plan.pool).run call.opened).1 = .ok paths
  size : ∃ size ∈ call.plan.batchSize, 1 ≤ size
  cap : call.plan.cap.isSome = true

instance (call : Call) (paths : List String) : Decidable (call.Lists paths) :=
  decidable_of_iff' _ (lists_iff call paths)

/-- A call that comes to its batches: the pool lists some paths, and the checkpoint tells what is
completed. -/
structure Opens (call : Call) (paths : List String) (items : List Value) : Prop
    extends Lists call paths where
  loaded : ((loadCompleted call.plan).run call.opened).1 = .ok (.list items)

/-- No file that a call writes fails to be written. -/
@[mk_iff]
structure Unhindered (call : Call) : Prop where
  touched : ((touch call.plan.resultsFile).run call.opened).1 = .ok ()
  batches : ∀ batch ∈ call.batches, batch.Unhindered

instance (call : Call) : Decidable call.Unhindered :=
  decidable_of_iff' _ call.unhindered_iff

/-- What becomes of pending machines of a call, one at a time. -/
def solos (call : Call) (pending : List String) : List (String × Solo) :=
  solosFrom call.plan call.opened pending

/-- A call leaves what its pending machines come to one at a time. -/
structure Unbatched (call : Call) (items : List Value) (pending : List String) : Prop
    extends Leaves call.plan items (call.solos pending) call.before call.after.workspace where
  /-- The call returns the records. -/
  returned : call.ended.1 = .ok (recordsOf (call.solos pending))
  /-- With pending machines the checkpoint can be reached. -/
  reached : pending ≠ [] → call.after.workspace.locate call.plan.checkpointFile =
    .ok (call.after.workspace.placeOf call.plan.checkpointFile)

end Call

section Calling

variable {call : Call} {paths : List String} {items : List Value}

/-- Once the pool is listed, the rest of a call's beginning gives what is pending. -/
theorem run_prepareListed {workspace written : Workspace} (paths : List String)
    (loaded : ((loadCompleted plan).run workspace).1 = .ok (.list items))
    (touched : (touch plan.resultsFile).run workspace = (.ok (), written)) :
    ∃ state, (prepareListed plan paths).run { workspace } = (.ok (pendingAmong items paths), state) ∧
      state.workspace = written ∧ state.completed = .list items := by
  let told : State :=
    { workspace, completed := .list items
      notices := [.loaded paths.length (pendingAmong items paths).length] }
  have loads := run_onWorkspace_of_reads (loadCompleted_reads plan) { workspace } loaded
  have lifted : ∀ state : State, (liftExcept ((pendingOf (.list items) paths).mapError
      Fault.data) : Run (List String)).run state = (.ok (pendingAmong items paths), state) := by
    intro state
    rw [pendingOf_list]
    exact run_liftExcept _ state
  have touches := run_onWorkspace (touch plan.resultsFile) told
  rw [show told.workspace = workspace from rfl, touched] at touches
  refine ⟨told.withWorkspace written, ?_, rfl, rfl⟩
  rw [prepareListed, run_bind_ok loads, run_bind_ok (run_modify _ _), run_bind_ok (lifted _),
    run_bind_ok (run_say _ _)]
  exact run_bind_ok touches

/-- A call that comes to its batches begins with what is pending. -/
theorem Call.Opens.prepared (opens : call.Opens paths items)
    (touched : ((touch call.plan.resultsFile).run call.opened).1 = .ok ()) :
    ∃ state, call.prepared = (.ok (pendingAmong items paths), state) ∧
      state.workspace = ((touch call.plan.resultsFile).run call.opened).2 ∧
      state.completed = .list items := by
  obtain ⟨⟨folder, listed, -, -⟩, loaded⟩ := opens
  have touching := run_eq_of_fst touched
  have made : (onWorkspace (makeDirectories call.plan.folder)).run { workspace := call.before } =
      (.ok (), { workspace := call.opened }) := by
    rw [run_onWorkspace, folder]
    rfl
  generalize ((touch call.plan.resultsFile).run call.opened).2 = written at touching ⊢
  generalize call.opened = opened at listed loaded touching made
  have lists := run_onWorkspace_of_reads (members_reads call.plan.pool) { workspace := opened } listed
  obtain ⟨state, ended, workspace, completed⟩ := run_prepareListed paths loaded touching
  refine ⟨state, ?_, workspace, completed⟩
  rw [Call.prepared, prepare, run_bind_ok made, run_bind_ok lists]
  exact ended

/-- Making the directory of the results changes no file. -/
theorem Call.opened_changesOnly (call : Call) : ChangesOnly [] call.before call.opened :=
  makeDirectories_changesOnly call.plan.folder call.before

/-- Making the directory of the results changes nothing that a file holds. -/
theorem Call.held?_opened (call : Call) (path : String) :
    call.opened.held? path = call.before.held? path :=
  call.opened_changesOnly.held?_eq (by simp)

/-- What the beginning of a call leaves to its batches: the results file is there, and nothing
else has changed. -/
structure Call.Begins (call : Call) (items : List Value) (begun : State) : Prop where
  completed : begun.completed = .list items
  changes : ChangesOnly [call.plan.resultsFile] call.opened begun.workspace
  same : SameDirectories call.opened begun.workspace
  results : begun.workspace.held? call.plan.resultsFile =
    some ((call.before.held? call.plan.resultsFile).getD ByteArray.empty)
  others : ∀ file ∈ call.plan.files.tail,
    begun.workspace.held? file = call.before.held? file

/-- A call that comes to its batches begins so, if its files are different ones. -/
theorem Call.Opens.begins (opens : call.Opens paths items)
    (touched : ((touch call.plan.resultsFile).run call.opened).1 = .ok ())
    (separate : call.plan.Separate call.opened) :
    ∃ begun, call.prepared = (.ok (pendingAmong items paths), begun) ∧ call.Begins items begun := by
  obtain ⟨begun, prepared, workspace, completed⟩ := opens.prepared touched
  have changes := rewrite_changesOnly call.plan.resultsFile id call.opened
  have same := rewrite_sameDirectories call.plan.resultsFile id call.opened
  have results := (shows_of_rewrite touched).held?_eq
  rw [show (rewrite call.plan.resultsFile id).run call.opened =
    (touch call.plan.resultsFile).run call.opened from rfl, ← workspace] at changes same results
  refine ⟨begun, prepared, ⟨completed, changes, same, ?_, fun file member => ?_⟩⟩
  · rw [results, call.held?_opened]
    rfl
  · have apart := (List.nodup_cons.mp separate).1
    refine (changes.held?_eq ?_).trans (call.held?_opened file)
    simpa using fun same => apart (List.mem_map.mpr ⟨file, member, same⟩)

/-- A call that comes to its batches runs them, and then only says that it is finished. -/
theorem Call.Opens.ended (opens : call.Opens paths items) {begun : State} {pending : List String}
    (prepared : call.prepared = (.ok pending, begun)) :
    ∃ size, size ≠ 0 ∧ call.batches = batchesFrom call.plan 1 (Pool.batches size pending) begun ∧
      ∀ records after,
        (runBatches call.plan 1 (Pool.batches size pending)).run begun = (.ok records, after) →
        call.ended = (.ok records, { after with notices := after.notices ++ [.finished] }) := by
  obtain ⟨size, given, positive⟩ := opens.size
  have sized : sizeOfBatches call.plan = .ok size.toNat := by
    have nonzero : size ≠ 0 := by omega
    have size : call.plan.batchSize = some size := given
    simp [sizeOfBatches, size, nonzero]
  refine ⟨size.toNat, by omega, ?_, fun records after ran => ?_⟩
  · unfold Call.batches
    rw [prepared, sized]
  · have begins : (prepare call.plan).run { workspace := call.before } = (.ok pending, begun) :=
      prepared
    have lifted : (liftExcept (sizeOfBatches call.plan) : Run Nat).run begun =
        (.ok size.toNat, begun) := by rw [sized, run_liftExcept]
    rw [Call.ended, Pool.run, run_bind_ok begins, run_bind_ok lifted, run_bind_ok ran,
      run_bind_ok (run_say _ _)]
    rfl

/-- A call leaves what its pending machines come to one at a time, if nothing that is written
fails and the files that are written are different ones, none of them a machine.  To these
machines and others the workspace then looks as it does after the pending ones were looked
at. -/
theorem Call.unbatched {others : List String} (opens : call.Opens paths items)
    (unhindered : call.Unhindered) (among : paths ⊆ others)
    (clear : call.plan.Clear others call.before) :
    call.Unbatched items (pendingAmong items paths) ∧
      Alike (others.map shown)
        ((pendingAmong items paths).foldl (settle call.plan) call.opened)
        call.after.workspace := by
  obtain ⟨cap, capped⟩ := Option.isSome_iff_exists.mp opens.cap
  have openedClear := clear.congr call.opened_changesOnly.current
  obtain ⟨begun, prepared, begins⟩ := opens.begins unhindered.touched openedClear.files
  obtain ⟨size, sized, batched, ended⟩ := opens.ended prepared
  have alike := openedClear.alike (by simp [Plan.files]) begins.changes begins.same
  have covered : (Pool.batches size (pendingAmong items paths)).flatten ⊆ others := by
    rw [flatten_batches sized]
    exact fun path member => among (List.mem_filter.mp member).1
  have batches := unhindered.batches
  rw [batched] at batches
  obtain ⟨after, ran, advances, unsaved, saved⟩ := advances_of_runBatches capped begins.completed
    alike covered (openedClear.congr begins.changes.current) batches
  rw [flatten_batches sized] at ran advances
  have final := ended _ _ ran
  have left : call.after.workspace = after.workspace := by rw [Call.after, final]
  have none : call.solos (pendingAmong items paths) = [] ↔
      Pool.batches size (pendingAmong items paths) = [] :=
    solosFrom_eq_nil_iff.trans (batches_eq_nil_iff sized _).symm
  rw [← left] at saved
  refine ⟨⟨⟨?_, ?_, ?_, fun nothing => ?_, fun some => ?_⟩, by rw [final, Call.solos],
    fun some => ?_⟩, ?_⟩
  · rw [left, advances.gained.results, begins.results, grown_some]
    rfl
  · rw [left, advances.gained.longRunners, begins.others _ (by simp [Plan.files])]
    rfl
  · intro journal kept status
    have member := statusFile_mem_journalFiles kept status
    rw [left, advances.gained.journal journal kept,
      begins.others _ (by simp [Plan.files, member])]
    rfl
  · rw [left, unsaved (none.mp nothing), begins.others _ (by simp [Plan.files])]
  · rw [(saved fun empty => some (none.mpr empty)).held?_eq, advances.completed]
    rfl
  · exact (saved fun empty => some ((batches_eq_nil_iff sized _).mp empty)).1
  · rw [left]
    exact advances.alike

end Calling

/-- The call with batches of another size. -/
def Call.withBatchSize (call : Call) (size : Int) : Call :=
  { call with plan := { call.plan with batchSize := some size } }

/-- The size of the batches makes no difference to what becomes of machines. -/
theorem solosFrom_withBatchSize (plan : Plan) (size : Int) (workspace : Workspace)
    (paths : List String) :
    solosFrom { plan with batchSize := some size } workspace paths =
      solosFrom plan workspace paths := by
  induction paths generalizing workspace with
  | nil => rfl
  | cons path rest inductionHypothesis => exact congrArg _ (inductionHypothesis _)

/-- A call that comes to its batches does so with batches of any size. -/
theorem Call.Opens.withBatchSize {call : Call} {paths : List String} {items : List Value}
    (opens : call.Opens paths items) {size : Int} (positive : 1 ≤ size) :
    (call.withBatchSize size).Opens paths items where
  folder := opens.folder
  listed := opens.listed
  size := ⟨size, rfl, positive⟩
  cap := opens.cap
  loaded := opens.loaded

/-- Calls with batches of two sizes return and leave the same, if both come to what their
machines come to one at a time. -/
theorem Call.Unbatched.withBatchSize {call : Call} {items : List Value} {pending : List String}
    {size : Int} (unbatched : call.Unbatched items pending)
    (other : (call.withBatchSize size).Unbatched items pending) :
    (call.withBatchSize size).ended.1 = call.ended.1 ∧
      ∀ file ∈ call.plan.files, (call.withBatchSize size).after.workspace.held? file =
        call.after.workspace.held? file := by
  have solos : (call.withBatchSize size).solos pending = call.solos pending :=
    solosFrom_withBatchSize call.plan size call.opened pending
  obtain ⟨leaves, returned, -⟩ := other
  rw [solos] at leaves returned
  have same : Leaves call.plan items (call.solos pending) call.before
      (call.withBatchSize size).after.workspace :=
    ⟨leaves.results, leaves.longRunners, leaves.journal, leaves.unsaved, leaves.saved⟩
  exact ⟨returned.trans unbatched.returned.symm,
    unbatched.toLeaves.unique same fun _ _ => rfl⟩

/-- A call of the pool runner in which nothing that is written fails leaves what its pending
machines come to one at a time, with batches of any size. -/
theorem unbatched_of_unhindered {call : Call} {paths : List String} {items : List Value}
    (opens : call.Opens paths items) (unhindered : call.Unhindered)
    (clear : call.plan.Clear paths call.before) :
    call.Unbatched items (pendingAmong items paths) ∧
      ∀ size, 1 ≤ size → (call.withBatchSize size).Unhindered →
        (call.withBatchSize size).ended.1 = call.ended.1 ∧
        ∀ file ∈ call.plan.files, (call.withBatchSize size).after.workspace.held? file =
          call.after.workspace.held? file := by
  have unbatched := (call.unbatched opens unhindered (List.Subset.refl _) clear).1
  refine ⟨unbatched, fun size positive unhinderedToo => ?_⟩
  have clearToo : (call.withBatchSize size).plan.Clear paths (call.withBatchSize size).before :=
    ⟨clear.files, clear.machines⟩
  exact unbatched.withBatchSize
    (Call.unbatched (opens.withBatchSize positive) unhinderedToo (List.Subset.refl _) clearToo).1

/-- A pool without books is a pool of which nothing is completed. -/
theorem loadCompleted_of_look_none {workspace : Workspace}
    (nothing : ((look plan.checkpointFile).run workspace).1.map Option.isNone = .ok true) :
    ((loadCompleted plan).run workspace).1 = .ok (.list []) := by
  cases looked : (look plan.checkpointFile).run workspace with
  | mk result after =>
      rw [looked] at nothing
      cases result with
      | error fault => cases nothing
      | ok found =>
          cases found with
          | none =>
              rw [loadCompleted, run_bind_ok looked]
              rfl
          | some entry => cases nothing

/-- The bytes of a pool that lists some paths. -/
def poolBytes (paths : List String) : ByteArray :=
  Text.encode (String.join (paths.map fun path => path ++ "\n"))

/-- The plan of a small pool, with books of short names. -/
def shelfPlan : Plan :=
  { lonePlan with output := "o", resultsRoot := "r" }

/-- The files of a pool that lists some paths: beside it there are two machines that do not end and
one without rules. -/
def shelf (paths : List String) : Workspace where
  entries := [(["work", "p"], .file (poolBytes paths)),
    (["work", "m"], .file (Text.encode "q, _ -> q, _, R\n")),
    (["work", "n"], .file (Text.encode "q, _ -> q, _, R\n")),
    (["work", "e"], .file (Text.encode "\n"))]

/-- A pool of a machine that does not end, one without rules, and one that is missing. -/
def mottledCall : Call where
  plan := shelfPlan
  before := shelf ["m", "e", "x"]

/-- The call comes to its batches, and the three machines are pending. -/
theorem opens_mottled : mottledCall.Opens ["m", "e", "x"] [] where
  toLists := by decide +kernel
  loaded := loadCompleted_of_look_none (by decide +kernel)

/-- The files of the pool are at different places, and the machines elsewhere. -/
theorem clear_mottled : mottledCall.plan.Clear ["m", "e", "x"] mottledCall.before where
  files := by
    unfold Plan.Separate
    decide +kernel
  machines := by decide +kernel

/-- One batch of three machines leaves the same as three batches of one. -/
theorem unbatched_of_unhindered_mottled :
    mottledCall.Opens ["m", "e", "x"] [] ∧ mottledCall.Unhindered ∧
      mottledCall.plan.Clear ["m", "e", "x"] mottledCall.before ∧
      mottledCall.Unbatched [] (pendingAmong [] ["m", "e", "x"]) ∧
      (mottledCall.withBatchSize 1).Unhindered ∧
      (mottledCall.withBatchSize 1).ended.1 = mottledCall.ended.1 := by
  have unhindered : mottledCall.Unhindered := by decide +kernel
  have singly : (mottledCall.withBatchSize 1).Unhindered := by decide +kernel
  obtain ⟨unbatched, resized⟩ :=
    unbatched_of_unhindered opens_mottled unhindered clear_mottled
  exact ⟨opens_mottled, unhindered, clear_mottled, unbatched, singly,
    (resized 1 (by decide) singly).1⟩

/-- The call that keeps its journal in the results file comes to its batches. -/
theorem opens_mixed : mixedCall.Opens ["m"] [] where
  toLists := by decide +kernel
  loaded := loadCompleted_of_look_none (by decide +kernel)

/-- If a file of the journal is the results file, more is added to it than the records. -/
theorem not_unbatched_mixed :
    mixedCall.Opens ["m"] [] ∧ mixedCall.Unhindered ∧
      (∀ path ∈ ["m"], ∀ file ∈ mixedCall.plan.files,
        mixedCall.before.placeOf (shown path) ≠ mixedCall.before.placeOf file) ∧
      ¬ mixedCall.Unbatched [] (pendingAmong [] ["m"]) := by
  refine ⟨opens_mixed, by decide +kernel, by decide +kernel, fun unbatched => ?_⟩
  have sizes := congrArg (Option.map ByteArray.size) unbatched.results
  revert sizes
  decide +kernel

end TapeLab.Pool
