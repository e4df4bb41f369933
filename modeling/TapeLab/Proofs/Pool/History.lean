import TapeLab.Proofs.Pool.Calls

/-!
# Histories of calls

One pool is run again and again, with the same books.  The main theorem says what the
books are worth after every call, whether it returned or raised and whatever the storage
refused: no call records a path that it reported, or one path twice, or a path that was
completed before.  Over the whole history every path is recorded at most once and every
recorded path is in the checkpoint just if every batch was stored soundly.
-/

namespace TapeLab.Pool

open Fallible Json Workspace

/-- Plans that run the same pool with the same books. -/
structure Plan.SamePool (plan base : Plan) : Prop where
  pool : plan.pool = base.pool
  output : plan.output = base.output
  resultsRoot : plan.resultsRoot = base.resultsRoot

namespace Plan.SamePool

variable {plan base : Plan} (same : plan.SamePool base)

include same

/-- The same pool has the same results file. -/
theorem resultsFile : plan.resultsFile = base.resultsFile := by
  simp only [Plan.resultsFile, Plan.folder, same.pool, same.output, same.resultsRoot]

/-- The same pool has the same checkpoint file. -/
theorem checkpointFile : plan.checkpointFile = base.checkpointFile := by
  simp only [Plan.checkpointFile, Plan.folder, same.pool, same.output, same.resultsRoot]

/-- The same records are read from the same results file. -/
theorem recorded (workspace : Workspace) :
    Pool.recorded plan workspace = Pool.recorded base workspace := by
  unfold Pool.recorded
  rw [same.resultsFile]

/-- The same paths are read from the same checkpoint file. -/
theorem checkpointed (workspace : Workspace) :
    Pool.checkpointed plan workspace = Pool.checkpointed base workspace := by
  unfold Pool.checkpointed loadCompleted
  rw [same.checkpointFile]

/-- The same books. -/
theorem books_iff {records : List RunRecord} {checkpoint : Checkpoint} {workspace : Workspace} :
    Books plan records checkpoint workspace ↔ Books base records checkpoint workspace := by
  constructor
  · rintro ⟨results, saved⟩
    rw [same.resultsFile] at results
    rw [same.checkpointFile] at saved
    exact ⟨results, saved⟩
  · rintro ⟨results, saved⟩
    rw [← same.resultsFile] at results
    rw [← same.checkpointFile] at saved
    exact ⟨results, saved⟩

end Plan.SamePool

/-- A call of a pool whose files are apart, that names each path once, and in which every
machine that did not end can be promoted. -/
structure Call.Regular (call : Call) (base : Plan) : Prop where
  pool : call.plan.SamePool base
  apart : call.plan.Apart call.before
  named : call.named.Nodup
  promoted : ∀ batch ∈ call.batches, ∀ attempted ∈ batch.attempts,
    promotionFails batch.plan attempted.1 attempted.2 = false

section Settling

variable {call : Call} {base : Plan} {records : List RunRecord} {checkpoint : Checkpoint}

/-- How a regular call leaves the books. -/
theorem Call.Regular.settled (regular : call.Regular base)
    (books : Books base records checkpoint call.before) :
    ∃ fresh next, Books base (records ++ fresh) next call.after.workspace ∧
      (fresh.map RunRecord.machine).Sublist
        (call.named.filter fun path => path ∉ checkpoint.paths) ∧
      (∀ path fault, .failed path fault ∈ call.after.notices →
        path ∉ fresh.map RunRecord.machine) ∧
      Accounted records checkpoint.paths fresh next call.batches := by
  obtain ⟨fresh, next, grown, accounted⟩ := call.settled (regular.pool.books_iff.mpr books)
    regular.apart regular.named fun batch member path before attempted =>
      regular.promoted batch member (path, before) attempted
  obtain ⟨said, notices, reported⟩ := grown.notices
  refine ⟨fresh, next, regular.pool.books_iff.mp grown.books, grown.own, ?_, accounted⟩
  intro path fault member
  rw [notices, List.nil_append] at member
  exact (reported path fault member).2

end Settling

/-- A call keeps the current directory. -/
theorem Call.after_current (call : Call) :
    call.after.workspace.current = call.before.current := by
  have changes := (run_changesOnly call.plan { workspace := call.before }).current
  rw [Call.after, Call.ended, changes]

/-- A history of regular calls, the first of which begins in a workspace. -/
structure Regular (base : Plan) (plans : List Plan) (workspace : Workspace) : Prop where
  pool : ∀ plan ∈ plans, plan.SamePool base
  apart : ∀ plan ∈ plans, plan.Apart workspace
  named : ∀ call ∈ calls plans workspace, call.named.Nodup
  promoted : ∀ call ∈ calls plans workspace, ∀ batch ∈ call.batches,
    ∀ attempted ∈ batch.attempts, promotionFails batch.plan attempted.1 attempted.2 = false

namespace Regular

variable {base plan : Plan} {plans : List Plan} {workspace : Workspace}

/-- The first call of a regular history is regular. -/
theorem head (regular : Regular base (plan :: plans) workspace) :
    Call.Regular ⟨plan, workspace⟩ base where
  pool := regular.pool plan List.mem_cons_self
  apart := regular.apart plan List.mem_cons_self
  named := regular.named _ List.mem_cons_self
  promoted := regular.promoted _ List.mem_cons_self

/-- The later calls of a regular history are a regular history. -/
theorem tail (regular : Regular base (plan :: plans) workspace) :
    Regular base plans (Call.mk plan workspace).after.workspace where
  pool := fun other member => regular.pool other (List.mem_cons_of_mem plan member)
  apart := fun other member =>
    (regular.apart other (List.mem_cons_of_mem plan member)).congr
      (Call.mk plan workspace).after_current
  named := fun call member => regular.named call (List.mem_cons_of_mem _ member)
  promoted := fun call member => regular.promoted call (List.mem_cons_of_mem _ member)

/-- Every call of a regular history is regular, and finds books that can be read. -/
theorem of_mem (regular : Regular base plans workspace) {records : List RunRecord}
    {checkpoint : Checkpoint} (books : Books base records checkpoint workspace) {call : Call}
    (member : call ∈ calls plans workspace) :
    call.Regular base ∧ ∃ records checkpoint, Books base records checkpoint call.before := by
  induction plans generalizing workspace records checkpoint with
  | nil => cases member
  | cons plan rest inductionHypothesis =>
      rcases List.mem_cons.mp member with rfl | later
      · exact ⟨regular.head, records, checkpoint, books⟩
      · obtain ⟨fresh, next, afterBooks, -⟩ := regular.head.settled books
        exact inductionHypothesis regular.tail afterBooks later

/-- As long as every batch is stored soundly, every path is recorded once at most and
every recorded path is in the checkpoint. -/
theorem covered_of_sound (regular : Regular base plans workspace) {records : List RunRecord}
    {checkpoint : Checkpoint} (books : Books base records checkpoint workspace)
    (distinct : (records.map RunRecord.machine).Nodup) (covered : Covered records checkpoint.paths)
    (sound : ∀ call ∈ calls plans workspace, ∀ batch ∈ call.batches, batch.StoredSoundly)
    {call : Call} (member : call ∈ calls plans workspace) :
    (recorded base call.after.workspace).Nodup ∧
      recorded base call.after.workspace ⊆ checkpointed base call.after.workspace := by
  induction plans generalizing workspace records checkpoint with
  | nil => cases member
  | cons plan rest inductionHypothesis =>
      obtain ⟨fresh, next, afterBooks, own, -, accounted⟩ := regular.head.settled books
      have afterDistinct : ((records ++ fresh).map RunRecord.machine).Nodup := by
        rw [List.map_append]
        refine List.nodup_append.mpr
          ⟨distinct, own.nodup (regular.head.named.filter _), ?_⟩
        rintro path before _ now rfl
        have pending := (List.mem_filter.mp (own.subset now)).2
        simp only [decide_eq_true_eq] at pending
        exact pending (covered before)
      have afterCovered := accounted.covered covered (sound _ List.mem_cons_self)
      rcases List.mem_cons.mp member with rfl | later
      · rw [afterBooks.recorded_eq, afterBooks.checkpointed_eq]
        exact ⟨afterDistinct, afterCovered⟩
      · exact inductionHypothesis regular.tail afterBooks afterDistinct afterCovered
          (fun other inside => sound other (List.mem_cons_of_mem _ inside)) later

end Regular

/-- The books of a pool that was never run are empty. -/
theorem books_of_unused {base : Plan} {workspace : Workspace}
    (unrecorded : workspace.Shows base.resultsFile none)
    (unsaved : workspace.Shows base.checkpointFile none) : Books base [] .absent workspace :=
  ⟨⟨none, unrecorded, rfl⟩, unsaved⟩

/-- What the books of a pool are worth after any calls of the pool runner, each of which
may return or raise. -/
theorem calls_recorded {base : Plan} {plans : List Plan} {workspace : Workspace}
    (unrecorded : workspace.Shows base.resultsFile none)
    (unsaved : workspace.Shows base.checkpointFile none)
    (regular : Regular base plans workspace) :
    (∀ call ∈ calls plans workspace, ∃ fresh,
      recorded base call.after.workspace = recorded base call.before ++ fresh ∧ fresh.Nodup ∧
      (∀ path ∈ fresh, path ∈ call.named ∧ path ∉ checkpointed base call.before) ∧
      ∀ path fault, .failed path fault ∈ call.after.notices → path ∉ fresh) ∧
    ((∀ call ∈ calls plans workspace, (recorded base call.after.workspace).Nodup ∧
        recorded base call.after.workspace ⊆ checkpointed base call.after.workspace) ↔
      ∀ call ∈ calls plans workspace, ∀ batch ∈ call.batches, batch.StoredSoundly) := by
  have unused := books_of_unused unrecorded unsaved
  refine ⟨fun call member => ?_, fun covered call member batch inside => ?_,
    fun sound call member => ?_⟩
  · obtain ⟨callRegular, records, checkpoint, books⟩ := regular.of_mem unused member
    obtain ⟨fresh, next, afterBooks, own, reported, -⟩ := callRegular.settled books
    refine ⟨fresh.map RunRecord.machine, ?_, own.nodup (callRegular.named.filter _), ?_, reported⟩
    · rw [afterBooks.recorded_eq, books.recorded_eq, List.map_append]
    · intro path recorded
      rw [books.checkpointed_eq]
      simpa using List.mem_filter.mp (own.subset recorded)
  · obtain ⟨callRegular, records, checkpoint, books⟩ := regular.of_mem unused member
    obtain ⟨fresh, next, afterBooks, -, -, accounted⟩ := callRegular.settled books
    have callCovered := (covered call member).2
    rw [afterBooks.recorded_eq, afterBooks.checkpointed_eq] at callCovered
    exact accounted.sound callCovered batch inside
  · exact regular.covered_of_sound unused List.nodup_nil (List.nil_subset _) sound member

/-- A pool of one machine, which is cut off before its first step. -/
def lonePlan : Plan where
  pool := "p"
  cap := some 0
  moment := ⟨2024, 1, 2, 3, 4, 5, 0⟩
  longRunners := "l"
  journal := some ⟨"", "t", "2024-01-02"⟩

/-- The files of that pool. -/
def loneWorkspace : Workspace where
  entries := [(["work", "p"], .file (Text.encode "m\n")),
    (["work", "m"], .file (Text.encode "q, _ -> q, _, R\n"))]

/-- Two calls of that pool are a regular history. -/
theorem regular_lone : Regular lonePlan [lonePlan, lonePlan] loneWorkspace := by
  have same : ∀ plan ∈ [lonePlan, lonePlan], plan = lonePlan := by simp
  have promotions : ApartFromBooks lonePlan loneWorkspace lonePlan.longRunners :=
    ⟨by decide +kernel, by decide +kernel⟩
  have journal : ∀ path ∈ lonePlan.journalFiles,
      loneWorkspace.placeOf lonePlan.resultsFile ≠ loneWorkspace.placeOf path := by
    decide +kernel
  refine ⟨fun plan member => ?_, fun plan member => ?_, by decide +kernel, by decide +kernel⟩
  · rw [same plan member]
    exact ⟨rfl, rfl, rfl⟩
  · rw [same plan member]
    exact ⟨promotions, journal⟩

/-- Both calls store what they gather, so that the machine is recorded once and stays
covered. -/
theorem calls_recorded_lone :
    loneWorkspace.Shows lonePlan.resultsFile none ∧
      loneWorkspace.Shows lonePlan.checkpointFile none ∧
      Regular lonePlan [lonePlan, lonePlan] loneWorkspace ∧
      ∀ call ∈ calls [lonePlan, lonePlan] loneWorkspace,
        (recorded lonePlan call.after.workspace).Nodup ∧
          recorded lonePlan call.after.workspace ⊆
            checkpointed lonePlan call.after.workspace := by
  have unrecorded : loneWorkspace.Shows lonePlan.resultsFile none :=
    shows_none_of_isNone (by decide +kernel)
  have unsaved : loneWorkspace.Shows lonePlan.checkpointFile none :=
    shows_none_of_isNone (by decide +kernel)
  have stored : ∀ call ∈ calls [lonePlan, lonePlan] loneWorkspace, ∀ batch ∈ call.batches,
      batch.stored.1.toOption = some () := by
    decide +kernel
  refine ⟨unrecorded, unsaved, regular_lone,
    (calls_recorded unrecorded unsaved regular_lone).2.mpr ?_⟩
  intro call member batch inside _
  have succeeds := stored call member batch inside
  cases ended : batch.stored.1 with
  | error fault => simp [ended, Except.toOption] at succeeds
  | ok _ => exact Or.inl rfl

/-- A call of a pool without books, which names each path once. -/
structure Call.Unused (call : Call) : Prop where
  unrecorded : call.before.Shows call.plan.resultsFile none
  unsaved : call.before.Shows call.plan.checkpointFile none
  named : call.named.Nodup

/-- Whether nothing stands where the books would be, and each path is named once. -/
def Call.isUnused (call : Call) : Bool :=
  (call.before.entryAt? (call.before.placeOf call.plan.resultsFile)).isNone &&
    (call.before.entryAt? (call.before.placeOf call.plan.checkpointFile)).isNone &&
    decide call.named.Nodup

/-- A pool whose books would stand nowhere has none. -/
theorem Call.unused_of_isUnused {call : Call} (vacant : call.isUnused = true) :
    call.Unused := by
  simp only [isUnused, Bool.and_eq_true, decide_eq_true_eq] at vacant
  obtain ⟨⟨results, checkpoint⟩, named⟩ := vacant
  exact ⟨shows_none_of_isNone results, shows_none_of_isNone checkpoint, named⟩

/-- What the results file is read as after a call, byte by byte. -/
def Call.resultsBytes? (call : Call) : Option (List UInt8) :=
  ((readBytes call.plan.resultsFile).run call.after.workspace).1.toOption.map fun held =>
    held.data.toList

/-- The paths with a record after a call that leaves the lines of some records. -/
theorem Call.recorded_of_resultsBytes {call : Call} {records : List RunRecord}
    (read : call.resultsBytes? = some (Text.encode (recordLines records)).data.toList) :
    recorded call.plan call.after.workspace = records.map RunRecord.machine :=
  recorded_of_shows (shows_of_readBytes read)

/-- A directory stands in the way of a journal file. -/
def blockedCall : Call where
  plan := lonePlan
  before := { loneWorkspace with
    entries := loneWorkspace.entries ++ [(["work", "unfinished_2024-01-02.jsonl"], .directory)] }

/-- When the journal fails, what was recorded before is in no checkpoint. -/
theorem recorded_blocked :
    blockedCall.Unused ∧ recorded blockedCall.plan blockedCall.after.workspace = ["m"] ∧
      checkpointed blockedCall.plan blockedCall.after.workspace = [] := by
  refine ⟨Call.unused_of_isUnused (by decide +kernel), ?_, by decide +kernel⟩
  have read : blockedCall.resultsBytes? =
      some (Text.encode (recordLines blockedCall.after.batch)).data.toList := by
    decide +kernel
  have machines : blockedCall.after.batch.map RunRecord.machine = ["m"] := by decide +kernel
  rw [Call.recorded_of_resultsBytes read, machines]

/-- A journal is kept in the results file. -/
def mixedCall : Call where
  plan := { lonePlan with
    output := "unfinished_2024-01-02"
    journal := some ⟨"results/p", "t", "2024-01-02"⟩ }
  before := loneWorkspace

/-- What is recorded in a file of the journal is recorded twice. -/
theorem recorded_mixed :
    mixedCall.Unused ∧ recorded mixedCall.plan mixedCall.after.workspace = ["m", "m"] := by
  refine ⟨Call.unused_of_isUnused (by decide +kernel), ?_⟩
  let twice := mixedCall.after.batch ++ mixedCall.after.batch
  have read : mixedCall.resultsBytes? =
      some (Text.encode (recordLines twice)).data.toList := by
    decide +kernel
  have machines : mixedCall.after.batch.map RunRecord.machine = ["m"] := by decide +kernel
  rw [Call.recorded_of_resultsBytes read, List.map_append, machines]
  rfl

/-- A file stands in the way of the list of machines that did not end. -/
def unpromotedCall : Call where
  plan := { lonePlan with longRunners := "m/l", journal := none }
  before := loneWorkspace

/-- A machine that cannot be promoted is reported and recorded. -/
theorem recorded_unpromoted :
    unpromotedCall.Unused ∧
      recorded unpromotedCall.plan unpromotedCall.after.workspace = ["m"] ∧
      .failed "m" (.storage ⟨.alreadyExists, "m"⟩) ∈ unpromotedCall.after.notices := by
  refine ⟨Call.unused_of_isUnused (by decide +kernel), ?_, by decide +kernel⟩
  have read : unpromotedCall.resultsBytes? =
      some (Text.encode (recordLines unpromotedCall.after.batch)).data.toList := by
    decide +kernel
  have machines : unpromotedCall.after.batch.map RunRecord.machine = ["m"] := by decide +kernel
  rw [Call.recorded_of_resultsBytes read, machines]

/-- The first call of a pool can leave a record that no checkpoint covers, or two records of
one machine, or a record of a machine that it reported. -/
theorem unused_not_covered :
    (blockedCall.Unused ∧ ¬ recorded blockedCall.plan blockedCall.after.workspace ⊆
        checkpointed blockedCall.plan blockedCall.after.workspace) ∧
      (mixedCall.Unused ∧ ¬ (recorded mixedCall.plan mixedCall.after.workspace).Nodup) ∧
      (unpromotedCall.Unused ∧ ∃ path fault,
        .failed path fault ∈ unpromotedCall.after.notices ∧
          path ∈ recorded unpromotedCall.plan unpromotedCall.after.workspace) := by
  obtain ⟨blocked, uncovered, unsaved⟩ := recorded_blocked
  obtain ⟨mixed, twice⟩ := recorded_mixed
  obtain ⟨unpromoted, kept, reported⟩ := recorded_unpromoted
  refine ⟨⟨blocked, ?_⟩, ⟨mixed, ?_⟩, unpromoted, "m", _, reported, ?_⟩
  · rw [uncovered, unsaved]
    simp
  · rw [twice]
    simp
  · rw [kept]
    exact List.mem_singleton.mpr rfl

end TapeLab.Pool
