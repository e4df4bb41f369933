import TapeLab.Proofs.Workspace.Held

/-!
# When storage fails

What storage does fails for a reason that lies in the storage and is reported as such
(`FailsInStorage`).  Where it refuses nothing, a file is written whenever its path names a place
for one (`rewrite_of_opens`).
-/

namespace TapeLab.Workspace

open Fallible

variable {α β : Type}

/-! ### Faults of storage -/

/-- Whatever an operation fails with is a fault of the storage. -/
def FailsInStorage (operation : Storage α) : Prop :=
  ∀ workspace fault, (operation.run workspace).1 = .error fault → ∃ reason, fault = .storage reason

namespace FailsInStorage

theorem pure (value : α) : FailsInStorage (pure value : Storage α) := by
  rintro workspace fault ⟨⟩

theorem get : FailsInStorage (get : Storage Workspace) := by
  rintro workspace fault ⟨⟩

theorem fail (path : String) (cause : StorageCause) :
    FailsInStorage (Workspace.fail path cause : Storage α) := by
  rintro workspace fault ⟨⟩
  exact ⟨_, rfl⟩

theorem bind {first : Storage α} {next : α → Storage β} (begins : FailsInStorage first)
    (goesOn : ∀ value, FailsInStorage (next value)) : FailsInStorage (first >>= next) := by
  intro workspace fault fails
  rw [run_bind] at fails
  cases ended : first.run workspace with
  | mk result between =>
      rw [ended] at fails
      cases result with
      | error other =>
          obtain rfl : other = fault := by simpa using fails
          exact begins workspace other (by rw [ended])
      | ok value => exact goesOn value between fault fails

theorem orFail (path : String) (found : Except StorageCause α) :
    FailsInStorage (orFail path found) := by
  cases found with
  | ok value => exact pure value
  | error cause => exact fail path cause

end FailsInStorage

theorem change_failsInStorage (path : String) (place : Location) (entry : Entry) :
    FailsInStorage (change path place entry) := by
  intro workspace fault fails
  obtain ⟨refusals, accepted | refused⟩ := change_outcome path place entry workspace
  · rw [accepted] at fails
    cases fails
  · rw [refused] at fails
    cases fails
    exact ⟨_, rfl⟩

theorem placeToWrite_failsInStorage (path : String) : FailsInStorage (placeToWrite path) := by
  intro workspace fault fails
  simp only [placeToWrite, run_bind_ok (run_get workspace)] at fails
  split at fails
  · cases located : workspace.locateAround path <;> rw [located] at fails <;>
      exact ⟨_, (Except.error.inj fails).symm⟩
  · refine FailsInStorage.bind (.orFail path _) (fun place => ?_) workspace fault fails
    split
    · exact .fail path _
    · exact .pure place

theorem rewrite_failsInStorage (path : String) (made : ByteArray → ByteArray) :
    FailsInStorage (rewrite path made) :=
  (placeToWrite_failsInStorage path).bind fun place => FailsInStorage.get.bind fun _ =>
    change_failsInStorage path place _

theorem makeDirectory_failsInStorage (path : String) : FailsInStorage (makeDirectory path) := by
  refine FailsInStorage.get.bind fun workspace => (FailsInStorage.orFail path _).bind fun place => ?_
  split
  · exact change_failsInStorage path place .directory
  · exact .pure ()
  · exact .fail path _

/-- Making what is already there is no failure. -/
theorem run_unlessPresent (make : Storage Unit) (workspace : Workspace) :
    (unlessPresent make).run workspace =
      match make.run workspace with
      | (.error (.storage ⟨.alreadyExists, _⟩), after) => (.ok (), after)
      | ended => ended := by
  simp only [unlessPresent]
  rw [run_bind, run_tryCatch]
  cases ended : make.run workspace with
  | mk result after =>
      cases result with
      | ok value =>
          rw [run_bind_ok ended]
          rfl
      | error fault =>
          rw [run_bind_error ended]
          cases fault
          case storage reason =>
            obtain ⟨cause, path⟩ := reason
            cases cause <;> rfl
          all_goals rfl

theorem unlessPresent_failsInStorage {make : Storage Unit} (makes : FailsInStorage make) :
    FailsInStorage (unlessPresent make) := by
  intro workspace fault fails
  rw [run_unlessPresent] at fails
  split at fails
  · cases fails
  · exact makes workspace fault fails

/-- A directory is made with what is missing around it, which is known by its shorter path. -/
theorem makeDirectoriesAt_eq (path : String) : makeDirectoriesAt path = (do
    let workspace ← get
    if (Path.splitText path).1 ≠ "" ∧ (Path.splitText path).2 ≠ "" ∧
        workspace.has (Path.splitText path).1 = false then
      unlessPresent (makeDirectoriesAt (Path.splitText path).1)
      if (Path.splitText path).2 = "." then return () else makeDirectory path
    else makeDirectory path) := by
  delta makeDirectoriesAt
  rw [WellFounded.Nat.fix_eq]
  refine congrArg (get >>= ·) (funext fun workspace => ?_)
  by_cases missing : (Path.splitText path).1 ≠ "" ∧ (Path.splitText path).2 ≠ "" ∧
      workspace.has (Path.splitText path).1 = false
  · rw [if_pos missing]
    exact dif_pos missing
  · rw [if_neg missing]
    exact dif_neg missing

/-- Whatever making one directory keeps is kept when those around it are made as well. -/
theorem makeDirectoriesAt_relates {relation : Workspace → Workspace → Prop}
    [IsPreorder Workspace relation] (makes : ∀ path, Relates relation (makeDirectory path))
    (path : String) : Relates relation (makeDirectoriesAt path) := by
  induction path using makeDirectoriesAt.induct with
  | case1 path inductionHypothesis =>
      rw [makeDirectoriesAt_eq]
      refine Relates.get.bind fun workspace => ?_
      split
      · next missing =>
        have around : Relates relation
            (unlessPresent (makeDirectoriesAt (Path.splitText path).1)) := by
          intro state
          have kept := inductionHypothesis workspace missing state
          rw [run_unlessPresent]
          split
          · next ended => rwa [ended] at kept
          · exact kept
        refine around.bind fun _ => ?_
        split
        · exact Relates.pure ()
        · exact makes path
      · exact makes path

/-- Making directories changes no file. -/
theorem makeDirectoriesAt_changesOnly (path : String) :
    Relates (ChangesOnly []) (makeDirectoriesAt path) :=
  makeDirectoriesAt_relates makeDirectory_changesOnly path

theorem makeDirectoriesAt_failsInStorage (path : String) :
    FailsInStorage (makeDirectoriesAt path) := by
  induction path using makeDirectoriesAt.induct with
  | case1 path inductionHypothesis =>
      rw [makeDirectoriesAt_eq]
      refine FailsInStorage.get.bind fun workspace => ?_
      split
      · next missing =>
        refine (unlessPresent_failsInStorage (inductionHypothesis workspace missing)).bind
          fun _ => ?_
        split
        · exact .pure ()
        · exact makeDirectory_failsInStorage path
      · exact makeDirectory_failsInStorage path

/-! ### Storage that refuses nothing -/

/-- The refusals to come after an operation are the last of those before it. -/
def RefusesLess (before after : Workspace) : Prop :=
  after.refusals <:+ before.refusals

instance : IsPreorder Workspace RefusesLess where
  refl _ := List.suffix_refl _
  trans _ _ _ first second := second.trans first

/-- A change uses up one refusal at most, and fails only if it is one. -/
theorem mayRefuse_refusesLess (path : String) : Relates RefusesLess (mayRefuse path) := by
  intro workspace
  simp only [mayRefuse, run_bind_ok (run_get workspace)]
  cases upcoming : workspace.refusals with
  | nil => exact refl_of RefusesLess workspace
  | cons refused later =>
      have shorter : RefusesLess workspace { workspace with refusals := later } := by
        rw [RefusesLess, upcoming]
        exact List.suffix_cons refused later
      cases refused <;> exact shorter

theorem change_refusesLess (path : String) (place : Location) (entry : Entry) :
    Relates RefusesLess (change path place entry) :=
  (mayRefuse_refusesLess path).bind fun _ => fun workspace => List.suffix_refl workspace.refusals

theorem makeDirectory_refusesLess (path : String) : Relates RefusesLess (makeDirectory path) := by
  refine Relates.get.bind fun workspace =>
    ((orFail_reads path _).mono fun _ _ same => same ▸ refl_of RefusesLess _).bind fun place => ?_
  split
  · exact change_refusesLess path place .directory
  · exact Relates.pure ()
  · exact Relates.throw _

theorem makeDirectoriesAt_refusesLess (path : String) :
    Relates RefusesLess (makeDirectoriesAt path) :=
  makeDirectoriesAt_relates makeDirectory_refusesLess path

/-- Storage that refuses no change. -/
def Grants (workspace : Workspace) : Prop :=
  true ∉ workspace.refusals

/-- Storage that refuses nothing goes on doing so. -/
theorem Grants.of_refusesLess {before after : Workspace} (grants : before.Grants)
    (less : RefusesLess before after) : after.Grants :=
  fun refused => grants (less.subset refused)

/-- Storage that refuses nothing accepts every change. -/
theorem Grants.change {workspace : Workspace} (grants : workspace.Grants) (path : String)
    (place : Location) (entry : Entry) : ∃ refusals,
      (change path place entry).run workspace =
        (.ok (), { workspace.put place entry with refusals }) := by
  have accepted : ∃ refusals,
      (mayRefuse path).run workspace = (.ok (), { workspace with refusals }) := by
    simp only [mayRefuse, run_bind_ok (run_get workspace)]
    cases upcoming : workspace.refusals with
    | nil => exact ⟨workspace.refusals, rfl⟩
    | cons refused later =>
        obtain rfl : refused = false := by
          rw [Grants, upcoming, List.mem_cons, not_or] at grants
          exact Bool.eq_false_iff.mpr (Ne.symm grants.1)
        exact ⟨later, rfl⟩
  obtain ⟨refusals, accepted⟩ := accepted
  exact ⟨refusals, by simp only [Workspace.change, run_bind_ok accepted, run_modify, put]⟩

/-- A path that names a place for a file: it is no directory's path, all that stands before its
last part is there, and no directory is at its place. -/
structure Opens (path : String) (workspace : Workspace) : Prop where
  named : path.endsWith "/" = false
  located : workspace.locate path = .ok (workspace.placeOf path)
  free : workspace.entryAt? (workspace.placeOf path) ≠ some .directory

/-- Where storage refuses nothing, a file is written at every path that names a place for one,
and the path goes on doing so. -/
theorem Opens.rewrite {path : String} {workspace : Workspace} (opens : Opens path workspace)
    (grants : workspace.Grants) (made : ByteArray → ByteArray) :
    ∃ after, (rewrite path made).run workspace = (.ok (), after) ∧ Opens path after ∧
      after.Grants := by
  have place : (placeToWrite path).run workspace = (.ok (workspace.placeOf path), workspace) := by
    have found : (orFail path (workspace.locate path)).run workspace =
        (.ok (workspace.placeOf path), workspace) := by
      rw [opens.located]
      rfl
    simp only [placeToWrite, run_bind_ok (run_get workspace), opens.named, Bool.false_eq_true,
      if_false, run_bind_ok found]
    split
    · next directory => exact absurd directory opens.free
    · rfl
  obtain ⟨refusals, changes⟩ := grants.change path (workspace.placeOf path)
    (.file (made (workspace.contents (workspace.placeOf path))))
  have steps : (Workspace.rewrite path made).run workspace =
      (change path (workspace.placeOf path)
        (.file (made (workspace.contents (workspace.placeOf path))))).run workspace := by
    simp only [Workspace.rewrite, run_bind_ok place, run_bind_ok (run_get workspace)]
  have written := steps.trans changes
  refine ⟨_, written, ?_, ?_⟩
  · have shows := shows_of_rewrite (congrArg Prod.fst written)
    rw [written] at shows
    refine ⟨opens.named, shows.1, ?_⟩
    rw [shows.2]
    simp
  · have less := change_refusesLess path (workspace.placeOf path)
      (.file (made (workspace.contents (workspace.placeOf path)))) workspace
    rw [changes] at less
    exact grants.of_refusesLess less

end TapeLab.Workspace
