import TapeLab.Proofs.Journal.Adding
import TapeLab.Proofs.Pool.Gathering
import TapeLab.Proofs.Pool.Solo

/-!
# What a batch adds to the files

When nothing that is written fails, gathering a batch comes to looking at its machines one at
a time, and each that did not end adds its path to the list of those that did not
(`gathers_of_forM_attempt`).  Storing the batch adds its records to the results and to the
journal, and puts the completed paths in the checkpoint (`stores_of_storeBatch`).
-/

namespace TapeLab.Pool

open Fallible Json Workspace

variable {plan : Plan} {path : String} {workspace ref : Workspace}

/-- The lines of one part of the records come after those of the other. -/
theorem promotedLines_append (first second : List RunRecord) :
    promotedLines (first ++ second) = promotedLines first ++ promotedLines second := by
  simp only [promotedLines, recordsWith, List.filter_append, List.map_append, String.join_append]

/-- The record of a machine names its path. -/
theorem machine_of_solo {record : RunRecord}
    (recorded : solo plan workspace path = .recorded record) : record.machine = path := by
  simp only [solo] at recorded
  split at recorded <;> cases recorded
  rfl

/-- What a machine adds to the list of those that did not end. -/
theorem promotedLines_solo (plan : Plan) (workspace : Workspace) (path : String) :
    promotedLines (solo plan workspace path).record?.toList =
      if (solo plan workspace path).isPromoted then path ++ "\n" else "" := by
  cases found : solo plan workspace path with
  | failed fault => rfl
  | ruleless => rfl
  | recorded record =>
      rw [← machine_of_solo found]
      cases running : record.status == .running <;>
        simp [promotedLines, recordsWith, Solo.record?, Solo.isPromoted, running]

section Promoting

/-- After a machine was added to the list of those that did not end, the directory of the list
stands, and else the same ones do. -/
theorem directories_of_promote
    (succeeds : ((promote plan path).run workspace).1 = .ok ()) (place : Location) :
    ((promote plan path).run workspace).2.entryAt? place = some .directory ↔
      workspace.entryAt? place = some .directory ∨
        place ∈ workspace.ways plan.promotionFolder := by
  obtain ⟨_, between, made, later⟩ := exists_of_bind_ok succeeds
  have folder := made_of_makeDirectories (Path.plain_ofText plan.longRunners).parent
    (show ((makeDirectories _).run workspace).1 = .ok () by rw [made])
  rw [made] at folder
  have adds : Relates SameDirectories (do
      Workspace.touch plan.longRunners
      Workspace.append plan.longRunners (path ++ "\n")) :=
    (rewrite_sameDirectories _ _).bind fun _ => rewrite_sameDirectories _ _
  have same : SameDirectories between ((promote plan path).run workspace).2 := by
    rw [show (promote plan path).run workspace = _ from later]
    exact adds between
  rw [same.directories place, folder.directories place]
  rfl

/-- After a machine was added to the list of those that did not end, its path is the last. -/
theorem held?_of_promote (succeeds : ((promote plan path).run workspace).1 = .ok ()) :
    ((promote plan path).run workspace).2.held? plan.longRunners =
      grown (workspace.held? plan.longRunners) (path ++ "\n") := by
  have visible : path ++ "\n" ≠ "" := by simp
  obtain ⟨_, made, making, afterMaking⟩ := exists_of_bind_ok succeeds
  rw [show (promote plan path).run workspace = _ from afterMaking] at succeeds ⊢
  obtain ⟨_, touched, touching, afterTouching⟩ := exists_of_bind_ok succeeds
  rw [afterTouching] at succeeds ⊢
  have unchanged : made.held? plan.longRunners = workspace.held? plan.longRunners := by
    have changes := makeDirectories_changesOnly (Path.ofText plan.longRunners).parent workspace
    rw [making] at changes
    exact changes.held?_eq (by simp)
  have shows := shows_of_rewrite (show ((touch plan.longRunners).run made).1 = .ok () by
    rw [touching])
  rw [show (rewrite plan.longRunners id).run made = _ from touching, unchanged] at shows
  rw [held?_of_append visible succeeds, shows.held?_eq, grown_some, grown, if_neg visible]
  rfl

/-- What the list of machines that did not end holds after a machine was attempted. -/
theorem held?_of_attempted (promotable : Promotable plan path workspace) :
    (attempted plan path workspace).held? plan.longRunners =
      grown (workspace.held? plan.longRunners)
        (promotedLines (solo plan workspace path).record?.toList) := by
  rw [promotedLines_solo, attempted]
  split
  · next running => exact held?_of_promote (promotable running)
  · exact (grown_empty _).symm

/-- Workspaces that look the same still do after a machine was looked at in the one and
attempted in the other. -/
theorem alike_attempted {paths : List String} (alike : Alike paths ref workspace)
    (member : shown path ∈ paths) (promotable : Promotable plan path workspace)
    (apart : ∀ other ∈ paths, workspace.placeOf other ≠ workspace.placeOf plan.longRunners) :
    Alike paths (settle plan ref path) (attempted plan path workspace) := by
  rw [settle, ← solo_congr alike member, attempted]
  split
  · next running =>
    have directories := directories_of_promote (promotable running)
    have changes := promote_changesOnly plan path workspace
    have ways : workspace.ways plan.promotionFolder = ref.ways plan.promotionFolder :=
      ways_congr alike.current
    refine ⟨⟨changes.current.trans alike.current, fun place => ?_⟩, fun other isOther => ?_⟩
    · rw [directories place, alike.directories place, ways, Plan.promoting,
        entryAt?_withDirectories]
      by_cases onWay : place ∈ ref.ways plan.promotionFolder <;> simp [onWay]
    · have place := placeOf_congr alike.current other
      rw [Plan.promoting, held?_withDirectories]
      split
      · next onWay =>
        -- What stands there is a directory by now, so no file does.
        have stands := (directories (workspace.placeOf other)).mpr
          (Or.inr (by rwa [ways, place]))
        rw [held?, placeOf_congr changes.current, stands]
      · rw [changes.held?_eq (by simpa using apart other isOther), alike.held other isOther]
  · exact alike

end Promoting

/-- What gathering a batch adds to the state of a run, if it looks the same to the machines as
some workspace. -/
structure Gathers (plan : Plan) (shownPaths paths : List String) (items : List Value)
    (ref : Workspace) (before after : State) : Prop where
  batch : after.batch = before.batch ++ recordsOf (solosFrom plan ref paths)
  completed : after.completed =
    .list (items ++ (readPaths (solosFrom plan ref paths)).map Value.text)
  longRunners : after.workspace.held? plan.longRunners =
    grown (before.workspace.held? plan.longRunners)
      (promotedLines (recordsOf (solosFrom plan ref paths)))
  alike : Alike shownPaths (paths.foldl (settle plan) ref) after.workspace

/-- The records of a machine come before those of the machines after it. -/
theorem recordsOf_cons (found : String × Solo) (rest : List (String × Solo)) :
    recordsOf (found :: rest) = found.2.record?.toList ++ recordsOf rest := by
  cases kept : found.2.record? <;> simp [recordsOf, kept]

/-- The path of a machine that could be read comes before the others. -/
theorem readPaths_cons (found : String × Solo) (rest : List (String × Solo)) :
    readPaths (found :: rest) =
      (if found.2.isCompleted then [found.1] else []) ++ readPaths rest := by
  cases kept : found.2.isCompleted <;> simp [readPaths, kept]

/-- The records of machines come before those of others after them. -/
theorem recordsOf_append (early late : List (String × Solo)) :
    recordsOf (early ++ late) = recordsOf early ++ recordsOf late :=
  List.filterMap_append

/-- The paths of machines that could be read come before those of others after them. -/
theorem readPaths_append (early late : List (String × Solo)) :
    readPaths (early ++ late) = readPaths early ++ readPaths late := by
  simp only [readPaths, List.filter_append, List.map_append]

/-- Attempting the machines of a batch comes to looking at them one at a time. -/
theorem gathers_of_forM_attempt {cap : Nat} {shownPaths paths : List String} {items : List Value}
    {before : State} (capped : plan.cap = some cap) (listed : before.completed = .list items)
    (alike : Alike shownPaths ref before.workspace)
    (covered : ∀ path ∈ paths, shown path ∈ shownPaths)
    (apart : ∀ other ∈ shownPaths,
      before.workspace.placeOf other ≠ before.workspace.placeOf plan.longRunners)
    (promotable : ∀ entry ∈ attempts plan paths before,
      Promotable plan entry.1 entry.2.workspace) :
    ((paths.forM (attempt plan)).run before).1 = .ok () ∧
      Gathers plan shownPaths paths items ref before
        ((paths.forM (attempt plan)).run before).2 := by
  induction paths generalizing items before ref with
  | nil =>
      refine ⟨rfl, ⟨(List.append_nil _).symm, ?_, (grown_empty _).symm, alike⟩⟩
      exact listed.trans (congrArg Value.list (List.append_nil _).symm)
  | cons path rest inductionHypothesis =>
      have member := covered path List.mem_cons_self
      have promotes := promotable (path, before) List.mem_cons_self
      obtain ⟨succeeds, looks⟩ := looks_of_attempt capped listed promotes
      have unfolded : (path :: rest).forM (attempt plan) = (do
          attempt plan path
          rest.forM (attempt plan)) := rfl
      have first : (attempt plan path).run before =
          (.ok (), ((attempt plan path).run before).2) := run_eq_of_fst succeeds
      have between := alike_attempted alike member promotes apart
      rw [← looks.workspace] at between
      have current := (attempt_changesOnly plan path before).current
      simp only [attempts] at promotable
      rw [unfolded, run_bind_ok first]
      rw [first] at promotable
      obtain ⟨succeedsLater, later⟩ := inductionHypothesis looks.completed between
        (fun other isOther => covered other (List.mem_cons_of_mem path isOther))
        (by simpa only [placeOf_congr current] using apart)
        fun entry isEntry => promotable entry (List.mem_cons_of_mem _ isEntry)
      have solo : solo plan before.workspace path = solo plan ref path :=
        solo_congr alike member
      refine ⟨succeedsLater, ⟨?_, ?_, ?_, later.alike⟩⟩
      · rw [later.batch, looks.batch, solosFrom, recordsOf_cons, solo, List.append_assoc]
      · rw [later.completed, solosFrom, readPaths_cons, solo, List.map_append, List.append_assoc]
        split <;> rfl
      · rw [later.longRunners, looks.workspace, held?_of_attempted promotes, grown_grown,
          ← promotedLines_append, solosFrom, recordsOf_cons, solo]

section Journal

variable {journal : Journal} {records : List RunRecord}

/-- A record tells the status of its run. -/
theorem hasStatus_value (status : Status) (record : RunRecord) :
    Journal.hasStatus status record.value = (record.status == status) := by
  have told : Journal.hasStatus status record.value = (record.status.word == status.word) := rfl
  rw [told]
  cases record.status <;> cases status <;> decide

/-- The entries for a status are those of the records with it. -/
theorem filter_hasStatus (status : Status) (records : List RunRecord) :
    (records.map RunRecord.value).filter (Journal.hasStatus status) =
      (recordsWith status records).map RunRecord.value := by
  rw [List.filter_map, recordsWith]
  refine congrArg _ (List.filter_congr fun record _ => ?_)
  exact hasStatus_value status record

/-- Route the records of one status to their file. -/
def routeOne (journal : Journal) (records : List RunRecord) (status : Status) : Storage Unit :=
  let selected := (records.map RunRecord.value).filter (Journal.hasStatus status)
  if selected.isEmpty then return else Journal.addAll (journal.statusFile status) selected

/-- Routing the records of a status adds their lines to its file. -/
theorem held?_of_routeOne {status : Status}
    (succeeds : ((routeOne journal records status).run workspace).1 = .ok ()) :
    ((routeOne journal records status).run workspace).2.held? (journal.statusFile status) =
      grown (workspace.held? (journal.statusFile status))
        (recordLines (recordsWith status records)) := by
  simp only [routeOne, filter_hasStatus, List.isEmpty_map] at succeeds ⊢
  split at succeeds
  · next none =>
    rw [List.isEmpty_iff.mp none]
    exact (grown_empty _).symm
  · next some =>
    have visible : recordLines (recordsWith status records) ≠ "" := fun empty =>
      some (by rw [eq_nil_of_recordLines empty]; rfl)
    rw [if_neg some, Journal.held?_of_addAll succeeds, List.map_map, grown, if_neg visible]
    rfl

/-- Routing the records of a status changes its file alone. -/
theorem routeOne_changesOnly (journal : Journal) (records : List RunRecord) (status : Status) :
    Relates (ChangesOnly [journal.statusFile status]) (routeOne journal records status) := by
  unfold routeOne
  dsimp only
  split
  · exact Relates.pure _
  · exact Journal.addAll_changesOnly _ _

/-- Routing the records of a status makes and removes no directory. -/
theorem routeOne_sameDirectories (journal : Journal) (records : List RunRecord)
    (status : Status) : Relates SameDirectories (routeOne journal records status) := by
  unfold routeOne
  dsimp only
  split
  · exact Relates.pure _
  · refine (rewrite_sameDirectories _ id).bind fun _ => Relates.forM fun entry _ => ?_
    exact rewrite_sameDirectories _ _

/-- Routing records for some statuses adds to the file of each the lines of its records. -/
theorem held?_of_forM_routeOne {statuses : List Status}
    (distinct : (statuses.map fun status =>
      workspace.placeOf (journal.statusFile status)).Nodup)
    (succeeds : ((statuses.forM (routeOne journal records)).run workspace).1 = .ok ()) :
    ∀ status ∈ statuses,
      ((statuses.forM (routeOne journal records)).run workspace).2.held?
          (journal.statusFile status) =
        grown (workspace.held? (journal.statusFile status))
          (recordLines (recordsWith status records)) := by
  induction statuses generalizing workspace with
  | nil => exact fun _ member => absurd member List.not_mem_nil
  | cons first rest inductionHypothesis =>
      obtain ⟨fresh, distinctRest⟩ := List.nodup_cons.mp distinct
      have unfolded : (first :: rest).forM (routeOne journal records) = (do
          routeOne journal records first
          rest.forM (routeOne journal records)) := rfl
      rw [unfolded] at succeeds ⊢
      obtain ⟨_, between, routed, later⟩ := exists_of_bind_ok succeeds
      rw [later] at succeeds ⊢
      have changes := routeOne_changesOnly journal records first workspace
      have own := @held?_of_routeOne workspace journal records first (by rw [routed])
      rw [routed] at changes own
      have places : ∀ status, between.placeOf (journal.statusFile status) =
          workspace.placeOf (journal.statusFile status) :=
        fun status => placeOf_congr changes.current _
      have apart : ∀ status ∈ rest, workspace.placeOf (journal.statusFile first) ≠
          workspace.placeOf (journal.statusFile status) := fun status member same =>
        fresh (List.mem_map.mpr ⟨status, member, same.symm⟩)
      have laterChanges : Relates (ChangesOnly (rest.map journal.statusFile))
          (rest.forM (routeOne journal records)) :=
        Relates.forM fun status member => (routeOne_changesOnly journal records status).mono
          fun _ _ changes => changes.mono (by simpa using ⟨status, member, rfl⟩)
      intro status member
      rcases List.mem_cons.mp member with rfl | isLater
      · rw [(laterChanges between).held?_eq (by simpa [places] using apart), own]
      · rw [inductionHypothesis (by simpa only [places] using distinctRest) succeeds status isLater,
          changes.held?_eq (by simpa using (apart status isLater).symm)]

/-- Routing the records of a batch is routing them for each status. -/
theorem journalResults_eq (kept : plan.journal = some journal) (records : List RunRecord) :
    journalResults plan records = Journal.routedStatuses.forM (routeOne journal records) := by
  have all : (records.map RunRecord.value).all (fun entry => entry.kind == .record) = true := by
    simp only [List.all_map, List.all_eq_true]
    exact fun record _ => rfl
  simp only [journalResults, kept, Journal.logByStatus, Value.elements?, all]
  rfl

end Journal

/-- Two uses of the workspace, one after the other, are one use of it. -/
theorem onWorkspace_bind {α β : Type} (first : Storage α) (next : α → Storage β) :
    onWorkspace (first >>= next) = onWorkspace first >>= fun value => onWorkspace (next value) := by
  funext state
  change (onWorkspace (first >>= next)).run state = ExceptT.run (do
    let value ← onWorkspace first
    onWorkspace (next value)) state
  rw [run_onWorkspace, run_bind, run_bind, run_onWorkspace]
  cases first.run state.workspace with
  | mk result after => cases result <;> rfl

/-- Store records: the results, the journal, and last the checkpoint. -/
def store (plan : Plan) (records : List RunRecord) (completed : Value) : Storage Unit := do
  appendResults plan records
  journalResults plan records
  saveCompleted plan completed

/-- A batch is stored with its records and with what is completed. -/
theorem run_storeBatch (plan : Plan) (state : State) :
    (storeBatch plan).run state =
      (onWorkspace (store plan state.batch state.completed)).run state := by
  rw [storeBatch, run_bind_ok (run_get state)]
  simp only [store, onWorkspace_bind]

/-- The files of a plan are at different places. -/
def Plan.Separate (plan : Plan) (workspace : Workspace) : Prop :=
  (plan.files.map workspace.placeOf).Nodup

/-- From one workspace to another the lines of some records were added to each file that
records are added to. -/
structure Gained (plan : Plan) (records : List RunRecord) (before after : Workspace) : Prop where
  results : after.held? plan.resultsFile =
    grown (before.held? plan.resultsFile) (recordLines records)
  longRunners : after.held? plan.longRunners =
    grown (before.held? plan.longRunners) (promotedLines records)
  journal : ∀ journal ∈ plan.journal, ∀ status,
    after.held? (journal.statusFile status) =
      grown (before.held? (journal.statusFile status)) (recordLines (recordsWith status records))

/-- The bytes of a checkpoint that tells what is completed. -/
def checkpointBytes (completed : Value) : ByteArray :=
  Text.encode (Value.record [(completedKey, completed)]).indented

/-- What storing records comes to, when nothing that is written fails. -/
structure Stores (plan : Plan) (records : List RunRecord) (completed : Value)
    (before after : Workspace) : Prop where
  same : SameDirectories before after
  results : after.held? plan.resultsFile =
    grown (before.held? plan.resultsFile) (recordLines records)
  longRunners : after.held? plan.longRunners = before.held? plan.longRunners
  journal : ∀ journal ∈ plan.journal, ∀ status,
    after.held? (journal.statusFile status) =
      grown (before.held? (journal.statusFile status)) (recordLines (recordsWith status records))
  saved : after.Shows plan.checkpointFile (some (checkpointBytes completed))

/-- Every record has a line in the results file. -/
theorem held?_of_appendResults {records : List RunRecord}
    (succeeds : ((appendResults plan records).run workspace).1 = .ok ()) :
    ((appendResults plan records).run workspace).2.held? plan.resultsFile =
      grown (workspace.held? plan.resultsFile) (recordLines records) :=
  held?_of_forM_append (fun record => by simp [Journal.line]) succeeds

/-- A checkpoint that was saved shows what is completed. -/
theorem shows_of_saveCompleted {completed : Value}
    (succeeds : ((saveCompleted plan completed).run workspace).1 = .ok ()) :
    ((saveCompleted plan completed).run workspace).2.Shows plan.checkpointFile
      (some (checkpointBytes completed)) := by
  obtain ⟨_, emptied, emptying, later⟩ := exists_of_bind_ok succeeds
  rw [show (saveCompleted plan completed).run workspace = _ from later] at succeeds ⊢
  have begun := shows_of_rewrite
    (show ((truncate plan.checkpointFile).run workspace).1 = .ok () by rw [emptying])
  rw [show (rewrite plan.checkpointFile _).run workspace = _ from emptying] at begun
  have written := shows_of_rewrite succeeds
  rw [begun.held?_eq, Option.getD_some, ByteArray.empty_append] at written
  exact written

/-- A file apart from those that changed holds what it held. -/
theorem held?_of_apart {paths : List String} {before after : Workspace}
    (changes : ChangesOnly paths before after) (current : before.current = workspace.current)
    (apart : workspace.placeOf path ∉ paths.map workspace.placeOf) :
    after.held? path = before.held? path := by
  refine changes.held?_eq fun other member same => apart ?_
  rw [placeOf_congr current, placeOf_congr current] at same
  exact List.mem_map.mpr ⟨other, member, same.symm⟩

/-- The journal has a file for every status. -/
theorem statusFile_mem_journalFiles {journal : Journal} (kept : plan.journal = some journal)
    (status : Status) : journal.statusFile status ∈ plan.journalFiles := by
  have routed : status ∈ Journal.routedStatuses := by cases status <;> decide
  simp only [Plan.journalFiles, kept]
  exact List.mem_map_of_mem routed

/-- The files of the journal are files of the plan. -/
theorem statusFile_mem_files {journal : Journal} (kept : plan.journal = some journal)
    (status : Status) : journal.statusFile status ∈ plan.files := by
  have inJournal := statusFile_mem_journalFiles kept status
  simp [Plan.files, inJournal]

/-- Saving a checkpoint changes its file alone. -/
theorem saveCompleted_changesOnly (plan : Plan) (completed : Value) :
    Relates (ChangesOnly [plan.checkpointFile]) (saveCompleted plan completed) :=
  (rewrite_changesOnly _ _).bind fun _ => append_changesOnly _ _

/-- Routing records to the journal adds to each file the lines of its records. -/
theorem held?_of_journalResults {records : List RunRecord} {journal : Journal}
    (kept : plan.journal = some journal)
    (distinct : (plan.journalFiles.map workspace.placeOf).Nodup)
    (succeeds : ((journalResults plan records).run workspace).1 = .ok ()) (status : Status) :
    ((journalResults plan records).run workspace).2.held? (journal.statusFile status) =
      grown (workspace.held? (journal.statusFile status))
        (recordLines (recordsWith status records)) := by
  have routed : status ∈ Journal.routedStatuses := by cases status <;> decide
  simp only [Plan.journalFiles, kept, List.map_map] at distinct
  rw [journalResults_eq kept] at succeeds ⊢
  exact held?_of_forM_routeOne distinct succeeds status routed

/-- Storing makes and removes no directory. -/
theorem store_sameDirectories (plan : Plan) (records : List RunRecord) (completed : Value) :
    Relates SameDirectories (store plan records completed) := by
  refine Relates.bind (Relates.forM fun record _ => rewrite_sameDirectories _ _) fun _ => ?_
  refine Relates.bind ?_ fun _ =>
    (rewrite_sameDirectories _ _).bind fun _ => rewrite_sameDirectories _ _
  cases kept : plan.journal with
  | none =>
      have nothing : journalResults plan records = pure () := by simp only [journalResults, kept]
      rw [nothing]
      exact Relates.pure ()
  | some journal =>
      rw [journalResults_eq kept]
      exact Relates.forM fun status _ => routeOne_sameDirectories journal records status

/-- Storing adds the records to the results and to the journal, and saves the checkpoint. -/
theorem stores_of_store {records : List RunRecord} {completed : Value}
    (separate : plan.Separate workspace)
    (succeeds : ((store plan records completed).run workspace).1 = .ok ()) :
    Stores plan records completed workspace ((store plan records completed).run workspace).2 := by
  have same := store_sameDirectories plan records completed workspace
  simp only [Plan.Separate, Plan.files, List.map_cons, List.nodup_cons, List.mem_cons,
    not_or] at separate
  obtain ⟨⟨resultsCheckpoint, resultsList, resultsJournal⟩, ⟨checkpointList, checkpointJournal⟩,
    listJournal, distinct⟩ := separate
  -- The three parts of storing, with what each of them changes.
  obtain ⟨_, appended, appending, afterAppending⟩ := exists_of_bind_ok succeeds
  rw [show (store plan records completed).run workspace = _ from afterAppending] at succeeds same ⊢
  have appends := @held?_of_appendResults plan workspace records (by rw [appending])
  have appendChanges := appendResults_changesOnly plan records workspace
  rw [appending] at appends appendChanges
  obtain ⟨_, journaled, journaling, afterJournaling⟩ := exists_of_bind_ok succeeds
  rw [afterJournaling] at succeeds same ⊢
  have journalChanges := journalResults_changesOnly plan records appended
  rw [journaling] at journalChanges
  have saveChanges := saveCompleted_changesOnly plan completed journaled
  have appendedCurrent := appendChanges.current
  have journaledCurrent := journalChanges.current.trans appendedCurrent
  refine ⟨same, ?_, ?_, ?_, shows_of_saveCompleted succeeds⟩
  · rw [held?_of_apart saveChanges journaledCurrent (by simpa using resultsCheckpoint),
      held?_of_apart journalChanges appendedCurrent resultsJournal, appends]
  · rw [held?_of_apart saveChanges journaledCurrent (by simpa using Ne.symm checkpointList),
      held?_of_apart journalChanges appendedCurrent listJournal,
      held?_of_apart appendChanges rfl (by simpa using Ne.symm resultsList)]
  · intro journal kept status
    have member := statusFile_mem_journalFiles kept status
    have place := List.mem_map_of_mem (f := workspace.placeOf) member
    have apartCheckpoint : workspace.placeOf (journal.statusFile status) ≠
        workspace.placeOf plan.checkpointFile := fun same => checkpointJournal (same ▸ place)
    have apartResults : workspace.placeOf (journal.statusFile status) ≠
        workspace.placeOf plan.resultsFile := fun same => resultsJournal (same ▸ place)
    have distinctLater : (plan.journalFiles.map appended.placeOf).Nodup := by
      have places : plan.journalFiles.map appended.placeOf =
          plan.journalFiles.map workspace.placeOf :=
        List.map_congr_left fun path _ => placeOf_congr appendedCurrent path
      rwa [places]
    have routed := @held?_of_journalResults plan appended records journal kept distinctLater
      (by rw [journaling]) status
    rw [journaling] at routed
    rw [held?_of_apart saveChanges journaledCurrent (by simpa using apartCheckpoint), routed,
      held?_of_apart appendChanges rfl (by simpa using apartResults)]

end TapeLab.Pool
