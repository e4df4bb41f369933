import TapeLab.Proofs.Pool.Unbatched

/-!
# Runs that are resumed

After a call of a pool the pool lists more paths, and it is called again.  Pending are then the
machines that could not be read the first time, and the new ones (`pendingAmong_completed`).  If
the former still cannot be read, the two calls together leave what one call leaves that looks at
all machines (`Continuation.leaves`), and so does one more call (`Resumption.Regular.resumed`).
-/

namespace TapeLab

namespace Workspace

variable {path other : String} {before after : Workspace}

/-- From one workspace to another at most the file at a path was written anew. -/
structure Refilled (path : String) (before after : Workspace) : Prop
    extends SameDirectories before after where
  changes : ChangesOnly [path] before after

namespace Refilled

theorem refl (path : String) (workspace : Workspace) : Refilled path workspace workspace where
  toSameDirectories := .refl workspace
  changes := .refl [path] workspace

/-- Another file holds what it held. -/
theorem held?_eq (refilled : Refilled path before after)
    (apart : before.placeOf other ≠ before.placeOf path) :
    after.held? other = before.held? other :=
  refilled.changes.held?_eq (by simpa using apart)

/-- A file that stands can be written anew. -/
theorem of_isSome {bytes : ByteArray} (stands : (before.held? path).isSome = true) :
    Refilled path before (before.holding path bytes) := by
  have free : before.entryAt? (before.placeOf path) ≠ some .directory := by
    intro directory
    simp [held?, directory] at stands
  exact ⟨sameDirectories_holding free, changesOnly_holding free⟩

/-- At other paths the workspaces look the same. -/
theorem alike {paths : List String} (refilled : Refilled path before after)
    (apart : ∀ other ∈ paths, before.placeOf other ≠ before.placeOf path) :
    Alike paths before after where
  toSameDirectories := refilled.toSameDirectories
  held := fun other member => refilled.held?_eq (apart other member)

end Refilled

end Workspace

namespace Pool

open Fallible Json Workspace

variable {plan : Plan} {workspace : Workspace}

section Failing

variable {solos : List (String × Solo)} {paths : List String}

/-- The paths of the machines that could not be read. -/
def failedPaths (solos : List (String × Solo)) : List String :=
  (solos.filter fun found => !found.2.isCompleted).map Prod.fst

/-- Every path has its place among what becomes of the machines. -/
theorem map_fst_solosFrom (plan : Plan) (workspace : Workspace) (paths : List String) :
    (solosFrom plan workspace paths).map Prod.fst = paths := by
  induction paths generalizing workspace with
  | nil => rfl
  | cons path rest inductionHypothesis => exact congrArg _ (inductionHypothesis _)

/-- Only machines that were looked at could be read. -/
theorem readPaths_subset (solos : List (String × Solo)) :
    readPaths solos ⊆ solos.map Prod.fst :=
  List.map_subset _ List.filter_sublist.subset

/-- What could not be read is all but what could. -/
theorem filter_readPaths (distinct : (solos.map Prod.fst).Nodup) :
    ((solos.map Prod.fst).filter fun path => path ∉ readPaths solos) = failedPaths solos := by
  induction solos with
  | nil => rfl
  | cons found rest inductionHypothesis =>
      obtain ⟨fresh, distinctRest⟩ := List.nodup_cons.mp distinct
      have unread : found.1 ∉ readPaths rest := fun member => fresh (readPaths_subset rest member)
      have later := inductionHypothesis distinctRest
      cases read : found.2.isCompleted with
      | true =>
          have others : ((rest.map Prod.fst).filter fun path => path ∉ found.1 :: readPaths rest) =
              (rest.map Prod.fst).filter fun path => path ∉ readPaths rest := by
            refine List.filter_congr fun path member => ?_
            have differs : path ≠ found.1 := fun same => fresh (same ▸ member)
            simp [differs]
          rw [readPaths_cons, read, if_pos rfl, List.singleton_append, List.map_cons,
            List.filter_cons_of_neg (by simp), others, later]
          simp [failedPaths, read]
      | false =>
          rw [readPaths_cons, read, if_neg (by simp), List.nil_append, List.map_cons,
            List.filter_cons_of_pos (by simpa using unread), later]
          simp [failedPaths, read]

/-- Machines that cannot be read leave no records. -/
theorem recordsOf_of_failing (failing : ∀ found ∈ solos, found.2.isCompleted = false) :
    recordsOf solos = [] := by
  refine List.filterMap_eq_nil_iff.mpr fun found member => ?_
  have fails := failing found member
  cases become : found.2 with
  | failed fault => rfl
  | ruleless => simp [become, Solo.isCompleted] at fails
  | recorded record => simp [become, Solo.isCompleted] at fails

/-- Of machines that cannot be read none is read. -/
theorem readPaths_of_failing (failing : ∀ found ∈ solos, found.2.isCompleted = false) :
    readPaths solos = [] := by
  rw [readPaths, List.filter_eq_nil_iff.mpr fun found member => by simp [failing found member]]
  rfl

/-- Machines that cannot be read leave the workspace as it is. -/
theorem foldl_settle_of_failing
    (failing : ∀ found ∈ solosFrom plan workspace paths, found.2.isCompleted = false) :
    paths.foldl (settle plan) workspace = workspace := by
  induction paths with
  | nil => rfl
  | cons path rest inductionHypothesis =>
      have fails := failing _ List.mem_cons_self
      have settled : settle plan workspace path = workspace := by
        rw [settle, if_neg]
        cases become : solo plan workspace path with
        | failed fault => exact Bool.false_ne_true
        | ruleless => exact Bool.false_ne_true
        | recorded record => simp [become, Solo.isCompleted] at fails
      rw [List.foldl_cons, settled]
      refine inductionHypothesis fun found member => failing found ?_
      rw [solosFrom, settled]
      exact List.mem_cons_of_mem _ member

end Failing

section Pending

variable {items : List Value} {early late : List String}

/-- Paths are pending after others. -/
theorem pendingAmong_append (items : List Value) (early late : List String) :
    pendingAmong items (early ++ late) = pendingAmong items early ++ pendingAmong items late :=
  List.filter_append _ _

/-- Paths that are added to the completed ones are no longer pending. -/
theorem pendingAmong_append_text (items : List Value) (done paths : List String) :
    pendingAmong (items ++ done.map Value.text) paths =
      (pendingAmong items paths).filter fun path => path ∉ done := by
  rw [pendingAmong, pendingAmong, List.filter_filter]
  refine List.filter_congr fun path _ => ?_
  have told : (done.map Value.text).any (isPath path) = decide (path ∈ done) := by
    simp [List.any_map, Function.comp_def, isPath, List.any_beq']
  rw [List.any_append, told, Bool.not_or, Bool.and_comm]
  simp

end Pending

/-- What one call leaves and then another is what one call leaves that looks at all machines, if
those that the other looks at again cannot be read. -/
theorem Leaves.next {items : List Value} {solos failing more : List (String × Solo)}
    {before between after : Workspace} (leaves : Leaves plan items solos before between)
    (same : ∀ file ∈ plan.files, workspace.held? file = between.held? file)
    (later : Leaves plan (items ++ (readPaths solos).map Value.text) (failing ++ more)
      workspace after)
    (fails : ∀ found ∈ failing, found.2.isCompleted = false)
    (again : solos = [] → failing = []) : Leaves plan items (solos ++ more) before after := by
  have records : recordsOf (failing ++ more) = recordsOf more := by
    rw [recordsOf_append, recordsOf_of_failing fails, List.nil_append]
  have paths : readPaths (failing ++ more) = readPaths more := by
    rw [readPaths_append, readPaths_of_failing fails, List.nil_append]
  have inFiles := plan.checkpointFile_mem_files
  refine ⟨?_, ?_, ?_, fun nothing => ?_, fun some => ?_⟩
  · rw [later.results, same _ plan.resultsFile_mem_files, leaves.results, records, recordsOf_append,
      recordLines_append, Text.encode_append, Option.getD_some, ByteArray.append_assoc]
  · rw [later.longRunners, same _ plan.longRunners_mem_files, leaves.longRunners, records,
      recordsOf_append, promotedLines_append, grown_grown]
  · intro journal kept status
    rw [later.journal journal kept, same _ (statusFile_mem_files kept status),
      leaves.journal journal kept, records, recordsOf_append, recordsWith_append,
      recordLines_append, grown_grown]
  · obtain ⟨first, second⟩ := List.append_eq_nil_iff.mp nothing
    rw [later.unsaved (by rw [again first, second, List.nil_append]), same _ inFiles,
      leaves.unsaved first]
  · by_cases unsaved : failing ++ more = []
    · -- The later call finds nothing pending, so the checkpoint is that of the first.
      obtain ⟨-, second⟩ := List.append_eq_nil_iff.mp unsaved
      rw [second, List.append_nil] at some ⊢
      rw [later.unsaved unsaved, same _ inFiles, leaves.saved some]
    · rw [later.saved unsaved, paths, readPaths_append, List.map_append, List.append_assoc]

/-- The files of a plan and some machines are at different places, none of which is that of the
pool. -/
structure Plan.ClearOfPool (plan : Plan) (paths : List String) (workspace : Workspace) : Prop
    extends Plan.Clear plan paths workspace where
  pool : ∀ path ∈ plan.files ++ paths.map shown,
    workspace.placeOf path ≠ workspace.placeOf plan.pool

/-- Where files are depends on the current directory alone. -/
theorem Plan.ClearOfPool.congr {paths : List String} {after : Workspace}
    (clear : plan.ClearOfPool paths workspace) (current : after.current = workspace.current) :
    plan.ClearOfPool paths after where
  toClear := clear.toClear.congr current
  pool := by simpa only [placeOf_congr current] using clear.pool

namespace Call

variable {call : Call} {items : List Value} {paths more shownPaths : List String}

/-- The call in another workspace. -/
def inWorkspace (call : Call) (workspace : Workspace) : Call :=
  { call with before := workspace }

/-- What becomes of the pending machines of a call. -/
def outcomes (call : Call) (items : List Value) (paths : List String) : List (String × Solo) :=
  call.solos (pendingAmong items paths)

/-- What is completed after a call. -/
def completed (call : Call) (items : List Value) (paths : List String) : List Value :=
  items ++ (readPaths (call.outcomes items paths)).map Value.text

/-- Pending after a call are the machines that it could not read, and those that were not in the
pool before. -/
theorem pendingAmong_completed (call : Call) (items : List Value)
    (distinct : (paths ++ more).Nodup) :
    pendingAmong (call.completed items paths) (paths ++ more) =
      failedPaths (call.outcomes items paths) ++ pendingAmong items more := by
  obtain ⟨distinctPaths, -, apart⟩ := List.nodup_append.mp distinct
  have looked : (call.outcomes items paths).map Prod.fst = pendingAmong items paths :=
    map_fst_solosFrom _ _ _
  have failed := @filter_readPaths (call.outcomes items paths)
    (by rw [looked]; exact distinctPaths.filter _)
  have new : ∀ path ∈ pendingAmong items more,
      decide (path ∉ readPaths (call.outcomes items paths)) = true := by
    intro path member
    refine decide_eq_true fun read => ?_
    have inPaths := readPaths_subset _ read
    rw [looked] at inPaths
    exact apart path (List.mem_filter.mp inPaths).1 path (List.mem_filter.mp member).1 rfl
  rw [completed, pendingAmong_append_text, pendingAmong_append, List.filter_append, ← looked,
    failed, List.filter_eq_self.mpr new]

/-- The directory of the results is made when a call begins. -/
theorem Lists.made (lists : call.Lists paths) :
    Made call.plan.folder call.before call.opened :=
  made_of_makeDirectories ((Path.plain_ofText _).join (Path.plain_ofText _)) lists.folder

/-- Calls begin alike in workspaces that look the same. -/
theorem Lists.alike_opened (lists : call.Lists paths)
    (again : (call.inWorkspace workspace).Lists more) (alike : Alike shownPaths call.before workspace) :
    Alike shownPaths call.opened (call.inWorkspace workspace).opened where
  toSameDirectories := lists.made.congr again.made alike.toSameDirectories
  held := by
    intro path member
    rw [held?_opened, held?_opened]
    exact alike.held path member

end Call

/-- The same is loaded from the same checkpoint. -/
theorem loadCompleted_congr {first second : Workspace} (same : SameDirectories first second)
    (held : second.held? plan.checkpointFile = first.held? plan.checkpointFile) :
    ((loadCompleted plan).run second).1 = ((loadCompleted plan).run first).1 := by
  have congr := @look_readText_congr first second plan.checkpointFile Value (.ok (.list []))
    (completedOf plan.checkpointFile) same held
  unfold loadCompleted
  exact congr

/-- Machines that could not be read before cannot be read now. -/
def StillFailing (before now : List (String × Solo)) : Prop :=
  ∀ found ∈ now, found.1 ∈ failedPaths before → found.2.isCompleted = false

instance (before now : List (String × Solo)) : Decidable (StillFailing before now) :=
  inferInstanceAs (Decidable (∀ found ∈ now, _ → _))

/-- A call, and the same call again in a workspace where nothing changed since but the pool, which
lists more paths.  Nothing that is written fails, and what cannot be read the first time cannot be
read again. -/
structure Call.Continuation (call : Call) (items : List Value) (paths more : List String)
    (workspace : Workspace) : Prop where
  opens : call.Opens paths items
  restorable : ∀ item ∈ items, Restorable item
  distinct : (paths ++ more).Nodup
  clear : call.plan.ClearOfPool (paths ++ more) call.before
  refilled : Refilled call.plan.pool call.after.workspace workspace
  lists : (call.inWorkspace workspace).Lists (paths ++ more)
  unhindered : call.Unhindered
  unhinderedAgain : (call.inWorkspace workspace).Unhindered
  failing : StillFailing (call.outcomes items paths)
    ((call.inWorkspace workspace).outcomes (call.completed items paths) (paths ++ more))

namespace Call.Continuation

variable {call : Call} {items : List Value} {paths more : List String}
  (continuation : call.Continuation items paths more workspace)

include continuation

/-- What the first call leaves. -/
theorem unbatched : call.Unbatched items (pendingAmong items paths) ∧
    Alike ((paths ++ more).map shown)
      ((pendingAmong items paths).foldl (settle call.plan) call.opened) call.after.workspace :=
  call.unbatched continuation.opens continuation.unhindered (List.subset_append_left _ _)
    continuation.clear.toClear

/-- Nothing is at the place of the pool after the first call. -/
theorem clear_after : call.plan.ClearOfPool (paths ++ more) call.after.workspace :=
  continuation.clear.congr call.after_current

/-- A file of the plan holds what the first call left. -/
theorem held?_eq {file : String} (member : file ∈ call.plan.files) :
    workspace.held? file = call.after.workspace.held? file :=
  continuation.refilled.held?_eq
    (continuation.clear_after.pool file (List.mem_append_left _ member))

/-- The second call begins where the machines were looked at. -/
theorem alike_opened : Alike ((paths ++ more).map shown)
    ((pendingAmong items paths).foldl (settle call.plan) call.opened)
    (call.inWorkspace workspace).opened := by
  have between := continuation.unbatched.2.trans (continuation.refilled.alike
    fun path member => continuation.clear_after.pool path (List.mem_append_right _ member))
  have current := continuation.refilled.current.trans call.after_current
  -- The directory of the results stands since the first call, so it is not made again.
  have stands : ∀ place ∈ workspace.ways call.plan.folder,
      workspace.entryAt? place = some .directory := by
    intro place onWay
    rw [ways_congr current] at onWay
    have made := continuation.opens.toLists.made.stands onWay
    exact (between.directories place).mpr (directory_of_foldl_settle _ _ made)
  have same := continuation.lists.made.sameDirectories stands
  exact between.trans ⟨same, fun path _ => held?_opened (call.inWorkspace workspace) path⟩

/-- What the first call completed can be read back. -/
theorem restorable_completed : ∀ item ∈ call.completed items paths, Restorable item := by
  intro item member
  rcases List.mem_append.mp member with old | new
  · exact continuation.restorable item old
  · exact restorable_of_mem_map_text item new

/-- What the first call completed is no deeper than what it loaded. -/
theorem depth_completed :
    (Value.record [(completedKey, .list (call.completed items paths))]).depth ≤ usualRoom := by
  have shallow := depth_of_loadCompleted continuation.opens.loaded
  simpa only [Call.completed, Value.depth, depthOfFields, depthOfItems_append_text] using shallow

/-- The second call loads what the first completed. -/
theorem opens_next :
    (call.inWorkspace workspace).Opens (paths ++ more) (call.completed items paths) where
  toLists := continuation.lists
  loaded := by
    have left := continuation.unbatched.1
    have inFiles := call.plan.checkpointFile_mem_files
    by_cases nothing : call.outcomes items paths = []
    · have none : pendingAmong items paths = [] := solosFrom_eq_nil_iff.mp nothing
      have alike := continuation.alike_opened
      have held : (call.inWorkspace workspace).opened.held? call.plan.checkpointFile =
          call.opened.held? call.plan.checkpointFile := by
        rw [held?_opened, held?_opened, ← left.unsaved nothing]
        exact continuation.held?_eq inFiles
      rw [none] at alike
      have loads := (loadCompleted_congr alike.toSameDirectories held).trans
        continuation.opens.loaded
      rw [Call.completed, nothing]
      exact loads.trans (congrArg (Except.ok ∘ Value.list) (List.append_nil items).symm)
    · have some : pendingAmong items paths ≠ [] := fun none =>
        nothing (solosFrom_eq_nil_iff.mpr none)
      have shows : call.after.workspace.Shows call.plan.checkpointFile
          (Option.some (checkpointBytes (.list (call.completed items paths)))) :=
        ⟨left.reached some, held?_eq_some_iff.mp (left.saved nothing)⟩
      have apart := continuation.clear_after.pool _ (List.mem_append_left _ inFiles)
      have filled := shows.of_changesOnly continuation.refilled.changes (by simpa using apart)
      have opened := filled.of_changesOnly (call.inWorkspace workspace).opened_changesOnly (by simp)
      exact congrArg Prod.fst (loadCompleted_of_shows continuation.restorable_completed
        continuation.depth_completed opened)

/-- The second call looks at the machines that could not be read, in vain, and then at the new
ones where the first call left off. -/
theorem outcomes_next : ∃ failing,
    (call.inWorkspace workspace).outcomes (call.completed items paths) (paths ++ more) =
      failing ++ solosFrom call.plan
        ((pendingAmong items paths).foldl (settle call.plan) call.opened)
        (pendingAmong items more) ∧
    (∀ found ∈ failing, found.2.isCompleted = false) ∧
    (call.outcomes items paths = [] → failing = []) := by
  have still := continuation.failing
  have pending := call.pendingAmong_completed items continuation.distinct
  have new := (@solosFrom_congr call.plan _ _ _ (pendingAmong items more)
    continuation.alike_opened fun path member => List.mem_map_of_mem
      (List.mem_append_right paths (List.mem_filter.mp member).1)).1
  have looked : (call.inWorkspace workspace).outcomes (call.completed items paths) (paths ++ more) =
      solosFrom call.plan (call.inWorkspace workspace).opened
        (failedPaths (call.outcomes items paths) ++ pendingAmong items more) :=
    congrArg (solosFrom call.plan (call.inWorkspace workspace).opened) pending
  rw [solosFrom_append] at looked
  have fails : ∀ found ∈ solosFrom call.plan (call.inWorkspace workspace).opened
      (failedPaths (call.outcomes items paths)), found.2.isCompleted = false := by
    intro found member
    refine still found (by rw [looked]; exact List.mem_append_left _ member) ?_
    rw [← map_fst_solosFrom call.plan (call.inWorkspace workspace).opened
      (failedPaths (call.outcomes items paths))]
    exact List.mem_map_of_mem member
  rw [foldl_settle_of_failing fails, new] at looked
  refine ⟨_, looked, fails, fun nothing => ?_⟩
  rw [nothing]
  rfl

/-- What both calls together leave, and what the second returns. -/
theorem leaves :
    Leaves call.plan items
      (call.outcomes items paths ++ solosFrom call.plan
        ((pendingAmong items paths).foldl (settle call.plan) call.opened)
        (pendingAmong items more))
      call.before (call.inWorkspace workspace).after.workspace ∧
    (call.inWorkspace workspace).ended.1 = .ok (recordsOf (solosFrom call.plan
      ((pendingAmong items paths).foldl (settle call.plan) call.opened)
      (pendingAmong items more))) := by
  obtain ⟨failing, looked, fails, none⟩ := continuation.outcomes_next
  have clear := (continuation.clear_after.congr continuation.refilled.current).toClear
  have left := (Call.unbatched continuation.opens_next continuation.unhinderedAgain
    (List.Subset.refl _) clear).1
  obtain ⟨leaves, returned, -⟩ := left
  rw [show (call.inWorkspace workspace).solos (pendingAmong (call.completed items paths)
    (paths ++ more)) = _ from looked] at leaves returned
  refine ⟨continuation.unbatched.1.toLeaves.next (fun file => continuation.held?_eq) leaves fails
    none, ?_⟩
  rw [returned, recordsOf_append, recordsOf_of_failing fails, List.nil_append]

end Call.Continuation

/-- A pool that is called as it lists some paths, again as it lists more, and once more; and beside
this a call as it lists all of them at once. -/
structure Resumption where
  first : Call
  /-- What is completed before the first call. -/
  items : List Value
  early : List String
  late : List String
  /-- The workspace in which the pool is called again. -/
  between : Workspace
  /-- The workspace in which it is called once. -/
  whole : Workspace

namespace Resumption

variable {resumption : Resumption}

/-- The call as the pool lists more paths. -/
def second (resumption : Resumption) : Call :=
  resumption.first.inWorkspace resumption.between

/-- The call after that. -/
def third (resumption : Resumption) : Call :=
  resumption.second.inWorkspace resumption.second.after.workspace

/-- The call as the pool lists all paths at once. -/
def single (resumption : Resumption) : Call :=
  resumption.first.inWorkspace resumption.whole

/-- What is completed after the second call. -/
def completed (resumption : Resumption) : List Value :=
  resumption.first.completed resumption.items resumption.early

/-- Calling twice and calling once leave the same in the files of the plan. -/
def Agrees (resumption : Resumption) : Prop :=
  ∀ file ∈ resumption.first.plan.files, resumption.second.after.workspace.held? file =
    resumption.single.after.workspace.held? file

/-- The pool names each path once, nothing but the pool changes between the calls, nothing that is
written fails, and no machine is a file that is written. -/
structure Ordinary (resumption : Resumption) : Prop where
  opens : resumption.first.Opens resumption.early resumption.items
  distinct : (resumption.early ++ resumption.late).Nodup
  machines : ∀ path ∈ resumption.early ++ resumption.late, ∀ file ∈ resumption.first.plan.files,
    resumption.first.before.placeOf (shown path) ≠ resumption.first.before.placeOf file
  refilled : Refilled resumption.first.plan.pool resumption.first.after.workspace
    resumption.between
  filled : Refilled resumption.first.plan.pool resumption.first.before resumption.whole
  secondLists : resumption.second.Lists (resumption.early ++ resumption.late)
  singleLists : resumption.single.Lists (resumption.early ++ resumption.late)
  unhindered : ∀ call ∈ [resumption.first, resumption.second, resumption.single],
    call.Unhindered

/-- The pool, its machines and the files that are written are different files, and what cannot be
read in one call cannot be read in the next. -/
structure Regular (resumption : Resumption) : Prop extends Ordinary resumption where
  files : resumption.first.plan.Separate resumption.first.before
  pool : ∀ path ∈ resumption.first.plan.files ++
      (resumption.early ++ resumption.late).map shown,
    resumption.first.before.placeOf path ≠
      resumption.first.before.placeOf resumption.first.plan.pool
  restorable : ∀ item ∈ resumption.items, Restorable item
  failing : StillFailing (resumption.first.outcomes resumption.items resumption.early)
    (resumption.second.outcomes resumption.completed (resumption.early ++ resumption.late))
  thirdLists : resumption.third.Lists (resumption.early ++ resumption.late)
  thirdUnhindered : resumption.third.Unhindered
  thirdFailing : StillFailing
    (resumption.second.outcomes resumption.completed (resumption.early ++ resumption.late))
    (resumption.third.outcomes
      (resumption.second.completed resumption.completed (resumption.early ++ resumption.late))
      (resumption.early ++ resumption.late))

namespace Regular

variable (regular : resumption.Regular)

include regular

/-- The second call goes on after the first. -/
theorem twice : resumption.first.Continuation resumption.items resumption.early resumption.late
    resumption.between where
  opens := regular.opens
  restorable := regular.restorable
  distinct := regular.distinct
  clear := ⟨⟨regular.files, regular.machines⟩, regular.pool⟩
  refilled := regular.refilled
  lists := regular.secondLists
  unhindered := regular.unhindered _ (by simp)
  unhinderedAgain := regular.unhindered resumption.second (by simp)
  failing := regular.failing

/-- The third call goes on after the second, without new paths. -/
theorem thrice : resumption.second.Continuation resumption.completed
    (resumption.early ++ resumption.late) [] resumption.second.after.workspace where
  opens := regular.twice.opens_next
  restorable := regular.twice.restorable_completed
  distinct := by
    rw [List.append_nil]
    exact regular.twice.distinct
  clear := by
    rw [List.append_nil]
    exact regular.twice.clear_after.congr regular.twice.refilled.current
  refilled := .refl _ _
  lists := by
    rw [List.append_nil]
    exact regular.thirdLists
  unhindered := regular.twice.unhinderedAgain
  unhinderedAgain := regular.thirdUnhindered
  failing := by
    rw [List.append_nil]
    exact regular.thirdFailing

/-- The single call leaves what becomes of all machines. -/
theorem leaves_single : Leaves resumption.first.plan resumption.items
    (resumption.first.outcomes resumption.items resumption.early ++
      solosFrom resumption.first.plan
        ((pendingAmong resumption.items resumption.early).foldl
          (settle resumption.first.plan) resumption.first.opened)
        (pendingAmong resumption.items resumption.late))
    resumption.whole resumption.single.after.workspace := by
  have twice := regular.twice
  have inFiles := resumption.first.plan.checkpointFile_mem_files
  have alike : Alike ((resumption.early ++ resumption.late).map shown) resumption.first.before
      resumption.whole :=
    regular.filled.alike fun path member =>
      twice.clear.pool path (List.mem_append_right _ member)
  have opened := twice.opens.toLists.alike_opened regular.singleLists alike
  have held : resumption.single.opened.held? resumption.first.plan.checkpointFile =
      resumption.first.opened.held? resumption.first.plan.checkpointFile := by
    rw [Call.held?_opened, Call.held?_opened]
    exact regular.filled.held?_eq (twice.clear.pool _ (List.mem_append_left _ inFiles))
  have opens : resumption.single.Opens (resumption.early ++ resumption.late) resumption.items :=
    ⟨regular.singleLists,
      (loadCompleted_congr opened.toSameDirectories held).trans twice.opens.loaded⟩
  have clear := (twice.clear.congr regular.filled.current).toClear
  have singly := regular.unhindered resumption.single (by simp)
  have leaves := (Call.unbatched opens singly (List.Subset.refl _) clear).1.toLeaves
  have looked : resumption.single.solos
      (pendingAmong resumption.items (resumption.early ++ resumption.late)) =
      resumption.first.solos (pendingAmong resumption.items resumption.early ++
        pendingAmong resumption.items resumption.late) := by
    rw [← pendingAmong_append]
    exact (solosFrom_congr opened fun path member =>
      List.mem_map_of_mem (List.mem_filter.mp member).1).1
  rw [looked, Call.solos, solosFrom_append] at leaves
  exact leaves

/-- A pool that is called again after it was given more paths leaves what it leaves if it is called
once as it lists all of them; and one more call returns nothing and leaves everything as it is. -/
theorem resumed :
    resumption.Agrees ∧ resumption.third.ended.1 = .ok [] ∧
    ∀ file ∈ resumption.first.plan.files,
      resumption.third.after.workspace.held? file =
        resumption.second.after.workspace.held? file := by
  have twice := regular.twice
  have again := regular.thrice
  have begun : ∀ file ∈ resumption.first.plan.files,
      resumption.first.before.held? file = resumption.whole.held? file := fun file member =>
    (regular.filled.held?_eq (twice.clear.pool file (List.mem_append_left _ member))).symm
  obtain ⟨leaves, returned⟩ := again.leaves
  rw [show solosFrom _ _ (pendingAmong resumption.completed []) = [] from rfl,
    List.append_nil] at leaves
  exact ⟨regular.leaves_single.unique twice.leaves.1 begun, returned,
    again.unbatched.1.toLeaves.unique leaves fun _ _ => rfl⟩

end Regular

/-- A pool without books is run as it lists some paths, and then it is given more. -/
def ofCall (first : Call) (early late : List String) : Resumption where
  first
  items := []
  early
  late
  between := first.after.workspace.holding first.plan.pool (poolBytes (early ++ late))
  whole := first.before.holding first.plan.pool (poolBytes (early ++ late))

/-- What makes the runs of such a pool ordinary, as far as it can be computed. -/
@[mk_iff]
structure Computed (first : Call) (early late : List String) : Prop where
  lists : first.Lists early
  nothing : ((look first.plan.checkpointFile).run first.opened).1.map Option.isNone = .ok true
  distinct : (early ++ late).Nodup
  machines : ∀ path ∈ early ++ late, ∀ file ∈ first.plan.files,
    first.before.placeOf (shown path) ≠ first.before.placeOf file
  stands : ∀ workspace ∈ [first.before, first.after.workspace],
    (workspace.held? first.plan.pool).isSome = true
  listsAll : ∀ call ∈ [(ofCall first early late).second, (ofCall first early late).single],
    call.Lists (early ++ late)
  unhindered : ∀ call ∈ [first, (ofCall first early late).second,
    (ofCall first early late).single], call.Unhindered

instance (first : Call) (early late : List String) : Decidable (Computed first early late) :=
  decidable_of_iff' _ (computed_iff first early late)

/-- The runs of a pool without books are ordinary if they are as far as can be computed. -/
theorem Computed.ordinary {first : Call} {early late : List String}
    (computed : Computed first early late) : (ofCall first early late).Ordinary where
  opens := ⟨computed.lists, loadCompleted_of_look_none computed.nothing⟩
  distinct := computed.distinct
  machines := computed.machines
  refilled := by
    change Refilled first.plan.pool first.after.workspace
      (first.after.workspace.holding first.plan.pool (poolBytes (early ++ late)))
    exact .of_isSome (computed.stands _ (List.mem_cons_of_mem _ List.mem_cons_self))
  filled := by
    change Refilled first.plan.pool first.before
      (first.before.holding first.plan.pool (poolBytes (early ++ late)))
    exact .of_isSome (computed.stands _ List.mem_cons_self)
  secondLists := computed.listsAll _ List.mem_cons_self
  singleLists := computed.listsAll _ (List.mem_cons_of_mem _ List.mem_cons_self)
  unhindered := computed.unhindered

/-- A machine without rules and a missing one, and later one that does not end. -/
def patchy : Resumption :=
  ofCall ⟨shelfPlan, shelf ["e", "x"]⟩ ["e", "x"] ["m"]

/-- The machine that is missing stays pending, and the others are looked at once. -/
theorem regular_patchy : patchy.Regular where
  toOrdinary := Computed.ordinary (by decide +kernel)
  files := by
    unfold Plan.Separate
    decide +kernel
  pool := by decide +kernel
  restorable := fun _ member => absurd member List.not_mem_nil
  failing := by decide +kernel
  thirdLists := by decide +kernel
  thirdUnhindered := by decide +kernel
  thirdFailing := by decide +kernel

/-- Calling that pool twice leaves what calling it once leaves. -/
theorem resumed_patchy : patchy.Regular ∧ patchy.Agrees ∧ patchy.third.ended.1 = .ok [] := by
  obtain ⟨agrees, returned, -⟩ := regular_patchy.resumed
  exact ⟨regular_patchy, agrees, returned⟩

/-- The machines that do not end are listed in the results file. -/
def promotedToResults : Resumption :=
  ofCall ⟨{ shelfPlan with longRunners := "r/p/o.jsonl", journal := none }, shelf ["m"]⟩
    ["m"] ["n"]

/-- A second machine is listed after the record of the first, or before it. -/
theorem promotedToResults_not_agrees :
    promotedToResults.Ordinary ∧ ¬ promotedToResults.Agrees := by
  refine ⟨Computed.ordinary (by decide +kernel), fun agrees => ?_⟩
  have starts := congrArg (Option.map fun bytes => bytes.data.toList.take 3)
    (agrees _ (Plan.resultsFile_mem_files _))
  revert starts
  decide +kernel

/-- The machines that do not end are listed in the pool. -/
def promotedToPool : Resumption :=
  ofCall ⟨{ shelfPlan with longRunners := "p", journal := none }, shelf ["m"]⟩ ["m"] []

/-- What the first call listed is lost when the pool is written anew. -/
theorem promotedToPool_not_agrees : promotedToPool.Ordinary ∧ ¬ promotedToPool.Agrees := by
  refine ⟨Computed.ordinary (by decide +kernel), fun agrees => ?_⟩
  have sizes := congrArg (Option.map ByteArray.size) (agrees _ (Plan.longRunners_mem_files _))
  revert sizes
  decide +kernel

/-- The path of a machine leads through the directory of the list of those that do not end. -/
def reachedLater : Resumption :=
  ofCall ⟨{ shelfPlan with longRunners := "d/l", journal := none }, shelf ["d/../m", "n"]⟩
    ["d/../m", "n"] []

/-- A machine that could not be read is read after another was promoted. -/
theorem reachedLater_not_agrees : reachedLater.Ordinary ∧ ¬ reachedLater.Agrees := by
  refine ⟨Computed.ordinary (by decide +kernel), fun agrees => ?_⟩
  have sizes := congrArg (Option.map ByteArray.size) (agrees _ (Plan.longRunners_mem_files _))
  revert sizes
  decide +kernel

/-- If files of a plan are one file or the pool, or a machine can be read only once another was
promoted, calling twice need not leave what calling once leaves. -/
theorem ordinary_not_agrees :
    (promotedToResults.Ordinary ∧ ¬ promotedToResults.Agrees) ∧
      (promotedToPool.Ordinary ∧ ¬ promotedToPool.Agrees) ∧
      (reachedLater.Ordinary ∧ ¬ reachedLater.Agrees) :=
  ⟨promotedToResults_not_agrees, promotedToPool_not_agrees, reachedLater_not_agrees⟩

end Resumption

end Pool

end TapeLab
