import TapeLab.Proofs.Pool.Gathering
import TapeLab.Proofs.Pool.Storing

/-!
# Batches and their books

A batch gathers records and then stores them.  However it ends, the results file has grown
by records of paths of the batch, one of each at most and none of a path that was reported
(`Batch.Settled`).  Whether every recorded path is in the checkpoint is another matter:
`Batch.StoredSoundly` says when, and `runBatches_settled` follows both through all batches
of a run.
-/

namespace TapeLab.Pool

open Fallible Json Workspace

/-- A batch at work: its number, its paths, and the state in which it begins. -/
structure Batch where
  plan : Plan
  number : Nat
  paths : List String
  before : State

namespace Batch

/-- The state in which the first machine of a batch is attempted. -/
def begun (batch : Batch) : State where
  workspace := batch.before.workspace
  notices := batch.before.notices ++ [.batchBegun batch.number batch.paths.length]
  progress := batch.before.progress ++ [{ total := batch.paths.length }]
  completed := batch.before.completed
  batch := []

/-- The paths of a batch that are attempted, each with the state in which it is. -/
def attempts (batch : Batch) : List (String × State) :=
  Pool.attempts batch.plan batch.paths batch.begun

/-- What came of gathering a batch. -/
def gathered (batch : Batch) : Except Fault Unit × State :=
  (gather batch.plan batch.number batch.paths).run batch.before

/-- What came of storing a batch that was gathered. -/
def stored (batch : Batch) : Except Fault Unit × State :=
  (storeBatch batch.plan).run batch.gathered.2

/-- What came of a batch. -/
def ended (batch : Batch) : Except Fault (List RunRecord) × State :=
  (runBatch batch.plan batch.number batch.paths).run batch.before

/-- A batch that is stored at all is stored to its end, or storing it breaks off before
anything is recorded.  The checkpoint then is as it was, or nothing was ever recorded. -/
def StoredSoundly (batch : Batch) : Prop :=
  batch.gathered.1 = .ok () → batch.stored.1 = .ok () ∨
    (recorded batch.plan batch.stored.2.workspace =
        recorded batch.plan batch.gathered.2.workspace ∧
      (checkpointed batch.plan batch.stored.2.workspace =
          checkpointed batch.plan batch.gathered.2.workspace ∨
        recorded batch.plan batch.stored.2.workspace = []))

/-- A batch is gathered by attempting its paths. -/
theorem gathered_eq (batch : Batch) :
    batch.gathered = (batch.paths.forM (attempt batch.plan)).run batch.begun :=
  rfl

/-- A batch that cannot be gathered is not stored. -/
theorem ended_of_gathered_error {batch : Batch} {fault : Fault}
    (fails : batch.gathered.1 = .error fault) :
    batch.ended = (.error fault, batch.gathered.2) := by
  have gathers : (gather batch.plan batch.number batch.paths).run batch.before =
      (.error fault, batch.gathered.2) := by
    rw [← fails]
    rfl
  exact run_bind_error gathers

/-- A batch that cannot be stored ends with that. -/
theorem ended_of_stored_error {batch : Batch} {fault : Fault}
    (gathers : batch.gathered.1 = .ok ()) (fails : batch.stored.1 = .error fault) :
    batch.ended = (.error fault, batch.stored.2) := by
  have gathers : (gather batch.plan batch.number batch.paths).run batch.before =
      (.ok (), batch.gathered.2) := by
    rw [← gathers]
    rfl
  have stores : (storeBatch batch.plan).run batch.gathered.2 =
      (.error fault, batch.stored.2) := by
    rw [← fails]
    rfl
  rw [ended, runBatch, run_bind_ok gathers, run_bind_error stores]

/-- A batch that is stored says so. -/
theorem ended_of_stored {batch : Batch} (gathers : batch.gathered.1 = .ok ())
    (stores : batch.stored.1 = .ok ()) :
    batch.ended = (.ok batch.stored.2.batch,
      { batch.stored.2 with notices := batch.stored.2.notices ++ [.batchStored] }) := by
  have gathers : (gather batch.plan batch.number batch.paths).run batch.before =
      (.ok (), batch.gathered.2) := by
    rw [← gathers]
    rfl
  have stores : (storeBatch batch.plan).run batch.gathered.2 = (.ok (), batch.stored.2) := by
    rw [← stores]
    rfl
  rw [ended, runBatch, run_bind_ok gathers, run_bind_ok stores]
  rfl

end Batch

/-- Every record is of a path among some. -/
def Covered (records : List RunRecord) (paths : List String) : Prop :=
  records.map RunRecord.machine ⊆ paths

/-- How a part of a pool run has let the results file grow: by records of its own paths,
one of each at most, and of none that it reported. -/
structure Grown (plan : Plan) (records fresh : List RunRecord) (checkpoint : Checkpoint)
    (paths : List String) (before after : State) : Prop where
  books : Books plan (records ++ fresh) checkpoint after.workspace
  own : (fresh.map RunRecord.machine).Sublist paths
  notices : ∃ said, after.notices = before.notices ++ said ∧
    ∀ path fault, .failed path fault ∈ said →
      path ∈ paths ∧ path ∉ fresh.map RunRecord.machine

/-- How a batch can end, where some records were stored and some paths completed before. -/
inductive Batch.Settled (batch : Batch) (records : List RunRecord) (done : List String) :
    Prop where
  /-- The batch is stored, and the checkpoint covers its records. -/
  | whole (result : List RunRecord) (after : State) (fresh : List RunRecord)
      (now : List String) (ended : batch.ended = (.ok result, after))
      (grown : Grown batch.plan records fresh (.saved (done ++ now)) batch.paths batch.before after)
      (among : now.Sublist batch.paths) (covered : Covered fresh now)
      (listed : after.completed = Checkpoint.listed (done ++ now))
      (sound : batch.StoredSoundly)
  /-- The batch breaks off; what is recorded stays covered just if that was sound. -/
  | brokenOff (fault : Fault) (after : State) (fresh : List RunRecord)
      (checkpoint : Checkpoint) (ended : batch.ended = (.error fault, after))
      (grown : Grown batch.plan records fresh checkpoint batch.paths batch.before after)
      (covered : Covered records done → batch.StoredSoundly →
        Covered (records ++ fresh) checkpoint.paths)
      (sound : Covered (records ++ fresh) checkpoint.paths → batch.StoredSoundly)

section Settling

variable {batch : Batch} {records : List RunRecord} {checkpoint : Checkpoint}

/-- A batch that was not gathered changes no books. -/
theorem Batch.settled_of_raised
    (books : Books batch.plan records checkpoint batch.gathered.2.workspace) {fault : Fault}
    {said : List Notice} (raised : batch.gathered.1 = .error fault)
    (reported : ∀ path fault, .failed path fault ∈ said → path ∈ batch.paths)
    (notices : batch.gathered.2.notices = batch.begun.notices ++ said) :
    batch.Settled records checkpoint.paths := by
  refine .brokenOff fault batch.gathered.2 [] checkpoint (ended_of_gathered_error raised) ?_ ?_ ?_
  · refine ⟨by simpa using books, List.nil_sublist _, ?_⟩
    refine ⟨.batchBegun batch.number batch.paths.length :: said, ?_, ?_⟩
    · rw [notices, Batch.begun, List.append_assoc, List.singleton_append]
    · intro path fault member
      rcases List.mem_cons.mp member with begun | later
      · cases begun
      · exact ⟨reported path fault later, List.not_mem_nil⟩
  · intro covered _
    rw [List.append_nil]
    exact covered
  · intro _ gathers
    rw [raised] at gathers
    cases gathers

/-- A batch that was gathered lets the results file grow by some of its records. -/
theorem Batch.grown_of_gathered {now : List String} {kept fresh : List RunRecord}
    {said : List Notice} {after : State} (among : now.Sublist batch.paths)
    (own : (kept.map RunRecord.machine).Sublist now)
    (reported : ∀ path fault, .failed path fault ∈ said → path ∈ batch.paths ∧ path ∉ now)
    (notices : ∃ later, after.notices = batch.begun.notices ++ said ++ later ∧ Quiet later)
    (stored : fresh.Sublist kept)
    (books : Books batch.plan (records ++ fresh) checkpoint after.workspace) :
    Grown batch.plan records fresh checkpoint batch.paths batch.before after := by
  have freshOwn := (stored.map RunRecord.machine).trans own
  obtain ⟨later, notices, quiet⟩ := notices
  refine ⟨books, freshOwn.trans among, ?_⟩
  refine ⟨.batchBegun batch.number batch.paths.length :: (said ++ later), ?_, ?_⟩
  · rw [notices, Batch.begun]
    simp
  · intro path fault member
    rcases List.mem_cons.mp member with begun | told
    · cases begun
    · rcases List.mem_append.mp told with early | late
      · obtain ⟨inside, pending⟩ := reported path fault early
        exact ⟨inside, fun recorded => pending (freshOwn.subset recorded)⟩
      · exact absurd late (quiet path fault)

/-- Storing that breaks off before the checkpoint is changed is sound just if nothing was
recorded. -/
theorem Batch.sound_iff_of_cut {part : List RunRecord} {fault : Fault}
    (gathers : batch.gathered.1 = .ok ()) (fails : batch.stored.1 = .error fault)
    (before : Books batch.plan records checkpoint batch.gathered.2.workspace)
    (after : Books batch.plan (records ++ part) checkpoint batch.stored.2.workspace) :
    batch.StoredSoundly ↔ part = [] := by
  simp only [Batch.StoredSoundly, gathers, fails, before.recorded_eq, after.recorded_eq,
    before.checkpointed_eq, after.checkpointed_eq, List.map_append, forall_const]
  constructor
  · rintro (succeeds | ⟨same, -⟩)
    · cases succeeds
    · have lengths := congrArg List.length same
      simp only [List.length_append, List.length_map] at lengths
      exact List.length_eq_zero_iff.mp (by omega)
  · rintro rfl
    exact Or.inr ⟨by simp, Or.inl trivial⟩

/-- Storing that leaves an empty checkpoint is sound just if nothing was recorded, now or
before; or nothing now, and the checkpoint told of nothing before. -/
theorem Batch.sound_iff_of_emptied {fresh : List RunRecord} {fault : Fault}
    (gathers : batch.gathered.1 = .ok ()) (fails : batch.stored.1 = .error fault)
    (before : Books batch.plan records checkpoint batch.gathered.2.workspace)
    (after : Books batch.plan (records ++ fresh) .emptied batch.stored.2.workspace) :
    batch.StoredSoundly ↔ fresh = [] ∧ (checkpoint.paths = [] ∨ records = []) := by
  simp only [Batch.StoredSoundly, gathers, fails, before.recorded_eq, after.recorded_eq,
    before.checkpointed_eq, after.checkpointed_eq, List.map_append, forall_const]
  constructor
  · rintro (succeeds | ⟨same, untouched | empty⟩)
    · cases succeeds
    · have lengths := congrArg List.length same
      simp only [List.length_append, List.length_map] at lengths
      exact ⟨List.length_eq_zero_iff.mp (by omega), Or.inl untouched.symm⟩
    · simp only [List.append_eq_nil_iff, List.map_eq_nil_iff] at empty
      exact ⟨empty.2, Or.inr empty.1⟩
  · rintro ⟨rfl, untold | unrecorded⟩
    · exact Or.inr ⟨by simp, Or.inl untold.symm⟩
    · exact Or.inr ⟨by simp, Or.inr (by simp [unrecorded])⟩

/-- Nothing is covered by no path. -/
theorem covered_nil_iff : Covered records [] ↔ records = [] := by
  simp [Covered]

/-- Where storing breaks off before the checkpoint is changed, what is recorded stays covered
just if that was sound: the checkpoint does not tell of the paths of the batch. -/
theorem Batch.covered_of_cut {part : List RunRecord} {fault : Fault}
    (gathers : batch.gathered.1 = .ok ()) (fails : batch.stored.1 = .error fault)
    (before : Books batch.plan records checkpoint batch.gathered.2.workspace)
    (after : Books batch.plan (records ++ part) checkpoint batch.stored.2.workspace)
    (untold : ∀ record ∈ part, record.machine ∉ checkpoint.paths) :
    (Covered records checkpoint.paths → batch.StoredSoundly →
        Covered (records ++ part) checkpoint.paths) ∧
      (Covered (records ++ part) checkpoint.paths → batch.StoredSoundly) := by
  have sound := Batch.sound_iff_of_cut gathers fails before after
  refine ⟨fun covered isSound => ?_, fun covered => ?_⟩
  · rw [sound.mp isSound, List.append_nil]
    exact covered
  · refine sound.mpr (List.eq_nil_iff_forall_not_mem.mpr fun record member => ?_)
    exact untold record member
      (covered (List.mem_map_of_mem (List.mem_append_right records member)))

/-- Where storing leaves an empty checkpoint, what is recorded stays covered just if that was
sound. -/
theorem Batch.covered_of_emptied {fresh : List RunRecord} {fault : Fault}
    (gathers : batch.gathered.1 = .ok ()) (fails : batch.stored.1 = .error fault)
    (before : Books batch.plan records checkpoint batch.gathered.2.workspace)
    (after : Books batch.plan (records ++ fresh) .emptied batch.stored.2.workspace) :
    (Covered records checkpoint.paths → batch.StoredSoundly →
        Covered (records ++ fresh) Checkpoint.emptied.paths) ∧
      (Covered (records ++ fresh) Checkpoint.emptied.paths → batch.StoredSoundly) := by
  have sound := Batch.sound_iff_of_emptied gathers fails before after
  have nothing : Covered (records ++ fresh) Checkpoint.emptied.paths ↔
      records = [] ∧ fresh = [] := covered_nil_iff.trans List.append_eq_nil_iff
  rw [nothing, sound]
  refine ⟨?_, fun ⟨unrecorded, unstored⟩ => ⟨unstored, Or.inr unrecorded⟩⟩
  rintro covered ⟨unstored, untold | unrecorded⟩
  · rw [untold, covered_nil_iff] at covered
    exact ⟨covered, unstored⟩
  · exact ⟨unrecorded, unstored⟩

/-- A batch that was gathered ends in one of the two ways. -/
theorem Batch.settled_of_gathered
    (pending : ∀ path ∈ batch.paths, path ∉ checkpoint.paths)
    (books : Books batch.plan records checkpoint batch.gathered.2.workspace)
    (apart : batch.plan.Apart batch.gathered.2.workspace)
    (gathers : batch.gathered.1 = .ok ()) {now : List String} {kept : List RunRecord}
    {said : List Notice} (among : now.Sublist batch.paths)
    (own : (kept.map RunRecord.machine).Sublist now)
    (reported : ∀ path fault, .failed path fault ∈ said → path ∈ batch.paths ∧ path ∉ now)
    (buffer : batch.gathered.2.batch = kept)
    (notices : batch.gathered.2.notices = batch.begun.notices ++ said)
    (listed : batch.gathered.2.completed = Checkpoint.listed (checkpoint.paths ++ now)) :
    batch.Settled records checkpoint.paths := by
  obtain ⟨result, after, ran, stored⟩ := storeBatch_outcome listed books apart
  rw [buffer] at stored
  have storedEq : batch.stored = (result, batch.gathered.2.withWorkspace after) := ran
  have storedAfter : batch.stored.2.workspace = after := by rw [storedEq]; rfl
  -- What the store adds to the notices is nothing, or that it was a success.
  have grown : ∀ (fresh : List RunRecord) (next : Checkpoint) (later : List Notice),
      fresh.Sublist kept → Quiet later → Books batch.plan (records ++ fresh) next after →
      Grown batch.plan records fresh next batch.paths batch.before
        { batch.stored.2 with notices := batch.stored.2.notices ++ later } := by
    intro fresh next later sublist quiet afterBooks
    rw [← storedAfter] at afterBooks
    refine Batch.grown_of_gathered among own reported ⟨later, ?_, quiet⟩ sublist afterBooks
    rw [storedEq, State.withWorkspace, notices]
  have unsaid : ∀ (fresh : List RunRecord) (next : Checkpoint), fresh.Sublist kept →
      Books batch.plan (records ++ fresh) next after →
      Grown batch.plan records fresh next batch.paths batch.before batch.stored.2 := by
    intro fresh next sublist afterBooks
    have same := grown fresh next [] sublist .nil afterBooks
    simpa only [List.append_nil] using same
  cases stored with
  | whole afterBooks =>
      have succeeds : batch.stored.1 = .ok () := by rw [storedEq]
      refine .whole _ _ kept now (ended_of_stored gathers succeeds) ?_ among own.subset ?_
        fun _ => Or.inl succeeds
      · exact grown kept _ _ (List.Sublist.refl kept) (.singleton (by simp)) afterBooks
      · rw [storedEq]
        exact listed
  | cut fault part rest parts afterBooks =>
      have fails : batch.stored.1 = .error fault := by rw [storedEq]
      have sublist : part.Sublist kept := by
        rw [parts]
        exact List.sublist_append_left part rest
      -- A record of this batch is of a path that the checkpoint did not tell before.
      have untold : ∀ record ∈ part, record.machine ∉ checkpoint.paths := fun record member =>
        pending record.machine
          (among.subset (own.subset (List.mem_map_of_mem (sublist.subset member))))
      have part := unsaid part checkpoint sublist afterBooks
      rw [← storedAfter] at afterBooks
      obtain ⟨covered, sound⟩ := Batch.covered_of_cut gathers fails books afterBooks untold
      exact .brokenOff fault _ _ _ (ended_of_stored_error gathers fails) part covered sound
  | emptied fault afterBooks =>
      have fails : batch.stored.1 = .error fault := by rw [storedEq]
      have all := unsaid kept .emptied (List.Sublist.refl kept) afterBooks
      rw [← storedAfter] at afterBooks
      obtain ⟨covered, sound⟩ := Batch.covered_of_emptied gathers fails books afterBooks
      exact .brokenOff fault _ _ _ (ended_of_stored_error gathers fails) all covered sound

/-- Every batch ends in one of the two ways, unless a promotion fails in it. -/
theorem Batch.settled (batch : Batch) {records : List RunRecord} {checkpoint : Checkpoint}
    {done : List String} (saved : checkpoint.paths = done)
    (books : Books batch.plan records checkpoint batch.before.workspace)
    (apart : batch.plan.Apart batch.before.workspace)
    (listed : batch.before.completed = Checkpoint.listed done)
    (distinct : batch.paths.Nodup) (pending : ∀ path ∈ batch.paths, path ∉ done)
    (promoted : ∀ path state, (path, state) ∈ batch.attempts →
      promotionFails batch.plan path state = false) :
    batch.Settled records done := by
  subst saved
  have changes := gather_changesOnly batch.plan batch.number batch.paths batch.before
  have gatheredBooks : Books batch.plan records checkpoint batch.gathered.2.workspace :=
    books.of_changesOnly changes fun path member => by
      rw [List.mem_singleton.mp member]
      exact apart.longRunners
  have gatheredApart : batch.plan.Apart batch.gathered.2.workspace := apart.congr changes.current
  have begunListed : batch.begun.completed = Checkpoint.listed checkpoint.paths := listed
  have outcome := forM_attempt_outcome distinct begunListed promoted
  rw [← Batch.gathered_eq] at outcome
  generalize same : batch.gathered = gathered at outcome
  obtain ⟨result, after⟩ := gathered
  cases outcome with
  | whole now kept said among own reported buffer notices nowListed =>
      refine batch.settled_of_gathered pending gatheredBooks gatheredApart (by rw [same])
        among own reported ?_ ?_ ?_
      · rw [same]
        exact buffer
      · rw [same]
        exact notices
      · rw [same]
        exact nowListed
  | raised fault said reported notices =>
      refine Batch.settled_of_raised gatheredBooks (by rw [same]) reported ?_
      rw [same]
      exact notices

end Settling

/-- The batches that a run comes to, in order; one that breaks off is the last. -/
def batchesFrom (plan : Plan) : Nat → List (List String) → State → List Batch
  | _, [], _ => []
  | number, paths :: rest, state =>
    let batch : Batch := ⟨plan, number, paths, state⟩
    batch ::
      match batch.ended with
      | (.ok _, after) => batchesFrom plan (number + 1) rest after
      | (.error _, _) => []

/-- Whether what is recorded stays covered is just whether every batch was stored
soundly. -/
structure Accounted (records : List RunRecord) (done : List String) (fresh : List RunRecord)
    (checkpoint : Checkpoint) (batches : List Batch) : Prop where
  covered : Covered records done → (∀ batch ∈ batches, batch.StoredSoundly) →
    Covered (records ++ fresh) checkpoint.paths
  sound : Covered (records ++ fresh) checkpoint.paths →
    ∀ batch ∈ batches, batch.StoredSoundly

namespace Accounted

variable {records fresh more : List RunRecord} {checkpoint next : Checkpoint}
  {done : List String} {batch : Batch} {rest : List Batch}

/-- Without batches every recorded path stays covered. -/
theorem nothing : Accounted records checkpoint.paths [] checkpoint [] := by
  refine ⟨fun covered _ => ?_, fun _ batch member => ?_⟩
  · rw [List.append_nil]
    exact covered
  · cases member

/-- A batch that breaks off is accounted for by itself. -/
theorem single (covered : Covered records done → batch.StoredSoundly →
      Covered (records ++ fresh) checkpoint.paths)
    (sound : Covered (records ++ fresh) checkpoint.paths → batch.StoredSoundly) :
    Accounted records done fresh checkpoint [batch] := by
  refine ⟨fun before isSound => covered before (isSound batch List.mem_cons_self), ?_⟩
  intro after other member
  rw [List.mem_singleton.mp member]
  exact sound after

/-- A batch that is stored covers its own records, and the later batches account for what
comes after. -/
theorem cons {now : List String} (own : Covered fresh now) (sound : batch.StoredSoundly)
    (accounted : Accounted (records ++ fresh) (done ++ now) more next rest) :
    Accounted records done (fresh ++ more) next (batch :: rest) := by
  refine ⟨fun before isSound => ?_, fun after other member => ?_⟩
  · rw [← List.append_assoc]
    refine accounted.covered ?_ fun other member => isSound other (List.mem_cons_of_mem _ member)
    intro path member
    rw [List.map_append] at member
    rcases List.mem_append.mp member with earlier | here
    · exact List.mem_append_left _ (before earlier)
    · exact List.mem_append_right _ (own here)
  · rw [← List.append_assoc] at after
    rcases List.mem_cons.mp member with rfl | later
    · exact sound
    · exact accounted.sound after other later

end Accounted

/-- After a batch that is stored, the others run on from where it ended. -/
theorem run_runBatches_cons {plan : Plan} {number : Nat} {paths : List String}
    {rest : List (List String)} {state between : State} {result : List RunRecord}
    (ended : (runBatch plan number paths).run state = (.ok result, between)) :
    ((runBatches plan number (paths :: rest)).run state).2 =
      ((runBatches plan (number + 1) rest).run between).2 := by
  rw [runBatches, run_bind_ok ended, run_bind]
  cases (runBatches plan (number + 1) rest).run between with
  | mk result after => cases result <;> rfl

/-- Nothing is added to the books by what only says something. -/
theorem Grown.nothing {plan : Plan} {records : List RunRecord} {checkpoint : Checkpoint}
    {before after : State} {said : List Notice} (paths : List String)
    (books : Books plan records checkpoint after.workspace)
    (notices : after.notices = before.notices ++ said) (quiet : Quiet said) :
    Grown plan records [] checkpoint paths before after := by
  refine ⟨?_, List.nil_sublist paths, said, notices, fun path fault member => ?_⟩
  · rw [List.append_nil]
    exact books
  · exact absurd member (quiet path fault)

/-- One part of a run after another. -/
theorem Grown.trans {plan : Plan} {records first second : List RunRecord}
    {checkpoint next : Checkpoint} {paths more : List String} {before between after : State}
    (distinct : (paths ++ more).Nodup)
    (grown : Grown plan records first checkpoint paths before between)
    (later : Grown plan (records ++ first) second next more between after) :
    Grown plan records (first ++ second) next (paths ++ more) before after := by
  have apart := (List.nodup_append.mp distinct).2.2
  obtain ⟨said, notices, reported⟩ := grown.notices
  obtain ⟨told, laterNotices, laterReported⟩ := later.notices
  refine ⟨by simpa using later.books, ?_, said ++ told, ?_, ?_⟩
  · rw [List.map_append]
    exact grown.own.append later.own
  · rw [laterNotices, notices, List.append_assoc]
  · intro path fault member
    rw [List.map_append, List.mem_append, List.mem_append, not_or]
    rcases List.mem_append.mp member with early | late
    · obtain ⟨inside, unrecorded⟩ := reported path fault early
      refine ⟨Or.inl inside, unrecorded, fun recorded => ?_⟩
      exact apart path inside path (later.own.subset recorded) rfl
    · obtain ⟨inside, unrecorded⟩ := laterReported path fault late
      refine ⟨Or.inr inside, fun recorded => ?_, unrecorded⟩
      exact apart path (grown.own.subset recorded) path inside rfl

/-- What a part of a run has added, it has added among more paths as well. -/
theorem Grown.of_sublist {plan : Plan} {records fresh : List RunRecord} {next : Checkpoint}
    {paths more : List String} {before after : State}
    (grown : Grown plan records fresh next paths before after) (sublist : paths.Sublist more) :
    Grown plan records fresh next more before after := by
  obtain ⟨said, notices, reported⟩ := grown.notices
  refine ⟨grown.books, grown.own.trans sublist, said, notices, fun path fault member => ?_⟩
  obtain ⟨inside, unrecorded⟩ := reported path fault member
  exact ⟨sublist.subset inside, unrecorded⟩

/-- The batches of a run let the results file grow by records of their paths, and every
recorded path stays in the checkpoint just if each of them is stored soundly. -/
theorem runBatches_settled {plan : Plan} {number : Nat} {batches : List (List String)}
    {state : State} {records : List RunRecord} {checkpoint : Checkpoint}
    (books : Books plan records checkpoint state.workspace) (apart : plan.Apart state.workspace)
    (listed : state.completed = Checkpoint.listed checkpoint.paths)
    (distinct : batches.flatten.Nodup)
    (pending : ∀ path ∈ batches.flatten, path ∉ checkpoint.paths)
    (promoted : ∀ batch ∈ batchesFrom plan number batches state, ∀ path before,
      (path, before) ∈ batch.attempts → promotionFails batch.plan path before = false) :
    ∃ fresh next,
      Grown plan records fresh next batches.flatten state
          ((runBatches plan number batches).run state).2 ∧
        Accounted records checkpoint.paths fresh next (batchesFrom plan number batches state) := by
  induction batches generalizing number state records checkpoint with
  | nil =>
      exact ⟨[], checkpoint, .nothing [] books (List.append_nil _).symm .nil, .nothing⟩
  | cons paths rest inductionHypothesis =>
      let batch : Batch := ⟨plan, number, paths, state⟩
      rw [List.flatten_cons] at distinct pending
      obtain ⟨ownDistinct, restDistinct, disjoint⟩ := List.nodup_append.mp distinct
      have settled := batch.settled rfl books apart listed ownDistinct
        (fun path member => pending path (List.mem_append_left _ member))
        (promoted batch List.mem_cons_self)
      cases settled with
      | brokenOff fault after fresh next ended grown covered sound =>
          have only : batchesFrom plan number (paths :: rest) state = [batch] := by
            simp only [batchesFrom, batch, ended]
          have ran : (runBatches plan number (paths :: rest)).run state =
              (.error fault, after) := run_bind_error ended
          rw [ran, only]
          exact ⟨fresh, next, grown.of_sublist (List.sublist_append_left paths rest.flatten),
            .single covered sound⟩
      | whole result between fresh now ended grown among own nowListed sound =>
          have listing : batchesFrom plan number (paths :: rest) state =
              batch :: batchesFrom plan (number + 1) rest between := by
            simp only [batchesFrom, batch, ended]
          have current : between.workspace.current = state.workspace.current := by
            have changes := (runBatch_changesOnly plan number paths state).current
            rw [show (runBatch plan number paths).run state = _ from ended] at changes
            exact changes
          have restPending : ∀ path ∈ rest.flatten, path ∉ checkpoint.paths ++ now := by
            intro path member inside
            rcases List.mem_append.mp inside with early | late
            · exact pending path (List.mem_append_right _ member) early
            · exact disjoint path (among.subset late) path member rfl
          rw [listing] at promoted ⊢
          obtain ⟨more, next, later, accounted⟩ := inductionHypothesis grown.books
            (apart.congr current) nowListed restDistinct restPending
            fun other member => promoted other (List.mem_cons_of_mem _ member)
          refine ⟨fresh ++ more, next, ?_, accounted.cons own sound⟩
          rw [run_runBatches_cons ended]
          exact grown.trans distinct later

end TapeLab.Pool
