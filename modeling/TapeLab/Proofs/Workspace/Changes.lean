import TapeLab.Proofs.Fallible
import TapeLab.Proofs.Workspace.Place
import TapeLab.Workspace.Storage

/-!
# What storage changes

Every operation on a workspace keeps the current directory and every directory, and it
changes no file but those it is asked to write (`ChangesOnly`).  A file that is written
is written as asked or not at all (`rewrite_outcome`).
-/

namespace TapeLab.Workspace

open Fallible

variable {α : Type}

/-- From one workspace to another no file changed but those at the places of some paths,
and no directory was lost. -/
structure ChangesOnly (paths : List String) (before after : Workspace) : Prop where
  current : after.current = before.current
  directories : ∀ place, before.entryAt? place = some .directory →
    after.entryAt? place = some .directory
  elsewhere : ∀ place bytes, (∀ path ∈ paths, place ≠ before.placeOf path) →
    (after.entryAt? place = some (.file bytes) ↔ before.entryAt? place = some (.file bytes))

/-- The place of a path depends on the current directory alone. -/
theorem placeOf_congr {before after : Workspace} (current : after.current = before.current)
    (path : String) : after.placeOf path = before.placeOf path := by
  simp only [placeOf, current]

namespace ChangesOnly

variable {paths more : List String} {before between after : Workspace}

theorem refl (paths : List String) (workspace : Workspace) :
    ChangesOnly paths workspace workspace where
  current := rfl
  directories := fun _ stands => stands
  elsewhere := fun _ _ _ => Iff.rfl

theorem trans (first : ChangesOnly paths before between)
    (second : ChangesOnly paths between after) : ChangesOnly paths before after where
  current := second.current.trans first.current
  directories := fun place stands => second.directories place (first.directories place stands)
  elsewhere := by
    intro place bytes apart
    have later : ∀ path ∈ paths, place ≠ between.placeOf path := by
      intro path member
      rw [placeOf_congr first.current]
      exact apart path member
    exact (second.elsewhere place bytes later).trans (first.elsewhere place bytes apart)

instance : IsPreorder Workspace (ChangesOnly paths) where
  refl := refl paths
  trans := fun _ _ _ => trans

/-- What was changed only in some places was changed only in those and others. -/
theorem mono (changes : ChangesOnly paths before after) (covered : paths ⊆ more) :
    ChangesOnly more before after where
  current := changes.current
  directories := changes.directories
  elsewhere := fun place bytes apart =>
    changes.elsewhere place bytes fun path member => apart path (covered member)

/-- A file elsewhere holds what it held. -/
theorem contents_eq (changes : ChangesOnly paths before after) {place : Location}
    (apart : ∀ path ∈ paths, place ≠ before.placeOf path) :
    after.contents place = before.contents place := by
  have same := fun bytes => changes.elsewhere place bytes apart
  unfold contents
  cases stood : before.entryAt? place with
  | none =>
      cases stands : after.entryAt? place with
      | none => rfl
      | some entry =>
          cases entry with
          | directory => rfl
          | file bytes => simp [(same bytes).mp stands] at stood
  | some entry =>
      cases entry with
      | directory => rw [changes.directories place stood]
      | file bytes => rw [(same bytes).mpr stood]

/-- A path that led to its place still does. -/
theorem locate_eq_ok (changes : ChangesOnly paths before after) {path : String}
    {place : Location} (located : before.locate path = .ok place) :
    after.locate path = .ok place :=
  locate_mono changes.current changes.directories located

/-- Only refusals to come were used up. -/
theorem of_entries (current : after.current = before.current)
    (entries : after.entries = before.entries) : ChangesOnly paths before after := by
  have same : ∀ place, after.entryAt? place = before.entryAt? place := by
    intro place
    simp only [entryAt?, current, entries]
  exact
    { current
      directories := fun place stands => (same place).trans stands
      elsewhere := fun place _ _ => by rw [same place] }

end ChangesOnly

/-- Where there is no directory, the current one is not inside. -/
theorem isPrefixOf_current_of_entryAt? {place : Location} {workspace : Workspace}
    (free : workspace.entryAt? place ≠ some .directory) :
    place.isPrefixOf workspace.current = false := by
  rw [← Bool.not_eq_true]
  intro around
  exact free (by simp [entryAt?, around])

/-- After something was put where no directory stood, it stands there, and everything
else stands where it stood. -/
theorem entryAt?_put_of_not_directory {place : Location} {workspace : Workspace}
    (entry : Entry) (free : workspace.entryAt? place ≠ some .directory) (other : Location) :
    (workspace.put place entry).entryAt? other =
      if place = other then some entry else workspace.entryAt? other :=
  entryAt?_put place other entry workspace (isPrefixOf_current_of_entryAt? free)

/-- The storage accepts a change or refuses it. -/
theorem mayRefuse_outcome (path : String) (workspace : Workspace) :
    ∃ refusals,
      (mayRefuse path).run workspace = (.ok (), { workspace with refusals }) ∨
      (mayRefuse path).run workspace =
        (.error (.storage ⟨.refused, path⟩), { workspace with refusals }) := by
  cases upcoming : workspace.refusals with
  | nil =>
      refine ⟨[], Or.inl ?_⟩
      simp only [mayRefuse, run_bind, run_get, upcoming, run_pure]
      rw [← upcoming]
  | cons refused later =>
      refine ⟨later, ?_⟩
      cases refused with
      | false =>
          left
          simp [mayRefuse, run_bind, upcoming]
      | true =>
          right
          simp [mayRefuse, run_bind, upcoming, fail]

/-- A change happens, or the storage refuses it. -/
theorem change_outcome (path : String) (place : Location) (entry : Entry)
    (workspace : Workspace) :
    ∃ refusals,
      (change path place entry).run workspace =
        (.ok (), { workspace.put place entry with refusals }) ∨
      (change path place entry).run workspace =
        (.error (.storage ⟨.refused, path⟩), { workspace with refusals }) := by
  obtain ⟨refusals, accepted | refused⟩ := mayRefuse_outcome path workspace
  · exact ⟨refusals, Or.inl (by simp only [change, run_bind_ok accepted, run_modify, put])⟩
  · exact ⟨refusals, Or.inr (by simp only [change, run_bind_error refused])⟩

/-- A place at which a file can be written is that of the path, and no directory is
there; otherwise nothing changes. -/
theorem placeToWrite_outcome (path : String) (workspace : Workspace) :
    (∃ fault, (placeToWrite path).run workspace = (.error fault, workspace)) ∨
      ((placeToWrite path).run workspace = (.ok (workspace.placeOf path), workspace) ∧
        workspace.locate path = .ok (workspace.placeOf path) ∧
        workspace.entryAt? (workspace.placeOf path) ≠ some .directory) := by
  simp only [placeToWrite, run_bind, run_get]
  split
  · left
    cases workspace.locateAround path with
    | error cause => exact ⟨_, rfl⟩
    | ok place => exact ⟨_, rfl⟩
  · cases located : workspace.locate path with
    | error cause => exact Or.inl ⟨_, rfl⟩
    | ok place =>
        obtain rfl := eq_placeOf located
        have found : (orFail path (.ok (workspace.placeOf path))).run workspace =
            (.ok (workspace.placeOf path), workspace) := rfl
        rw [run_bind_ok found]
        split
        · exact Or.inl ⟨_, rfl⟩
        · next free => exact Or.inr ⟨rfl, rfl, free⟩

/-- The workspace after a file was written. -/
def holding (path : String) (bytes : ByteArray) (workspace : Workspace) : Workspace :=
  workspace.put (workspace.placeOf path) (.file bytes)

/-- How writing a file can end. -/
inductive Rewritten (path : String) (made : ByteArray → ByteArray) (before : Workspace) :
    Except Fault Unit → Workspace → Prop where
  /-- The file is written at the place of its path. -/
  | done (refusals : List Bool)
      (located : before.locate path = .ok (before.placeOf path))
      (free : before.entryAt? (before.placeOf path) ≠ some .directory) :
      Rewritten path made before (.ok ())
        { before.holding path (made (before.contents (before.placeOf path))) with refusals }
  /-- No file is changed. -/
  | failed (fault : Fault) (refusals : List Bool) :
      Rewritten path made before (.error fault) { before with refusals }

/-- A file is written as asked, or no file is changed. -/
theorem rewrite_outcome (path : String) (made : ByteArray → ByteArray)
    (workspace : Workspace) :
    Rewritten path made workspace ((rewrite path made).run workspace).1
      ((rewrite path made).run workspace).2 := by
  simp only [rewrite]
  rcases placeToWrite_outcome path workspace with ⟨fault, fails⟩ | ⟨succeeds, located, free⟩
  · rw [run_bind_error fails]
    exact .failed fault workspace.refusals
  · rw [run_bind_ok succeeds, run_bind_ok (run_get workspace)]
    obtain ⟨refusals, accepted | refused⟩ := change_outcome path (workspace.placeOf path)
      (.file (made (workspace.contents (workspace.placeOf path)))) workspace
    · rw [accepted]
      exact .done refusals located free
    · rw [refused]
      exact .failed _ refusals

section Holding

variable {path : String} {bytes : ByteArray} {workspace : Workspace}

/-- What stands in a workspace after a file was written. -/
theorem entryAt?_holding (free : workspace.entryAt? (workspace.placeOf path) ≠ some .directory)
    (place : Location) :
    (workspace.holding path bytes).entryAt? place =
      if workspace.placeOf path = place then some (.file bytes)
      else workspace.entryAt? place :=
  entryAt?_put_of_not_directory _ free place

/-- Writing a file changes that file alone. -/
theorem changesOnly_holding
    (free : workspace.entryAt? (workspace.placeOf path) ≠ some .directory) :
    ChangesOnly [path] workspace (workspace.holding path bytes) where
  current := rfl
  directories := by
    intro place stands
    rw [entryAt?_holding free]
    split
    · next same => exact absurd (same ▸ stands) free
    · exact stands
  elsewhere := by
    intro place others apart
    rw [entryAt?_holding free, if_neg]
    exact Ne.symm (apart path (List.mem_singleton.mpr rfl))

end Holding

/-- However writing a file ends, no other file changes. -/
theorem Rewritten.changesOnly {path : String} {made : ByteArray → ByteArray}
    {before after : Workspace} {result : Except Fault Unit}
    (rewritten : Rewritten path made before result after) :
    ChangesOnly [path] before after := by
  cases rewritten with
  | done refusals located free =>
      exact (changesOnly_holding free).trans (.of_entries rfl rfl)
  | failed fault refusals => exact ChangesOnly.of_entries rfl rfl

theorem rewrite_changesOnly (path : String) (made : ByteArray → ByteArray) :
    Relates (ChangesOnly [path]) (rewrite path made) :=
  fun workspace => (rewrite_outcome path made workspace).changesOnly

/-- A new directory changes no file. -/
theorem changesOnly_put_directory {place : Location} {workspace : Workspace}
    (vacant : workspace.entryAt? place = none) :
    ChangesOnly [] workspace (workspace.put place .directory) := by
  have free : workspace.entryAt? place ≠ some .directory := by simp [vacant]
  have standing := entryAt?_put_of_not_directory .directory free
  refine ⟨rfl, ?_, ?_⟩
  · intro other stands
    rw [standing other]
    split
    · rfl
    · exact stands
  · intro other bytes _
    rw [standing other]
    split
    · next same => simp [← same, vacant]
    · rfl

/-- Making a directory changes no file. -/
theorem makeDirectory_changesOnly (path : String) :
    Relates (ChangesOnly []) (makeDirectory path) := by
  intro workspace
  simp only [makeDirectory, run_bind, run_get]
  cases located : workspace.locateNew path with
  | error cause => exact .refl [] workspace
  | ok place =>
      have found : (orFail path (.ok place)).run workspace = (.ok place, workspace) := rfl
      rw [found]
      dsimp only
      split
      · next vacant =>
        obtain ⟨refusals, accepted | refused⟩ :=
          change_outcome path place .directory workspace
        · rw [accepted]
          exact (changesOnly_put_directory vacant).trans (.of_entries rfl rfl)
        · rw [refused]
          exact .of_entries rfl rfl
      · exact .refl [] workspace
      · exact .refl [] workspace

/-- Making a directory with all around it changes no file. -/
theorem makeDirectories_changesOnly (path : Path) :
    Relates (ChangesOnly []) (makeDirectories path) := by
  have inner : ∀ parts, Relates (ChangesOnly []) (makeInnermost path.top parts) := by
    intro parts
    induction parts with
    | nil => exact makeDirectory_changesOnly _
    | cons part around inductionHypothesis =>
        simp only [makeInnermost]
        refine Relates.bind Relates.get fun workspace => ?_
        split
        · exact inductionHypothesis.bind fun _ => makeDirectory_changesOnly _
        · exact makeDirectory_changesOnly _
  exact inner path.parts.reverse

end TapeLab.Workspace
