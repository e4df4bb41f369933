import Mathlib.Data.List.Sort
import Mathlib.Data.String.Basic
import TapeLab.MachineFile
import TapeLab.Proofs.Workspace.Following

/-!
# The machine files of a directory

The machine files of a directory are those of its files that have the suffix of one, in the order
of their names (`MachineFile.run_findIn`).  Where there is no such directory there are none; only a
name that is too long for any directory is a failure.
-/

namespace TapeLab

open Fallible

namespace Workspace

/-- The name of what is held at a place in a directory, if it is a file of this directory. -/
def fileName? (place : Location) (held : Location × Entry) : Option String :=
  match held.2 with
  | .directory => none
  | .file _ =>
    match held.1.getLast? with
    | some name => if held.1 == place ++ [name] then some name else none
    | none => none

/-- A file has a name in a directory if it stands there under this name. -/
theorem fileName?_eq_some_iff {place : Location} {held : Location × Entry} {name : String} :
    fileName? place held = some name ↔ held.1 = place ++ [name] ∧ ∃ bytes, held.2 = .file bytes := by
  obtain ⟨other, entry⟩ := held
  cases entry with
  | directory => simp [fileName?]
  | file bytes =>
      constructor
      · intro named
        simp only [fileName?] at named
        split at named
        · split at named
          · next last _ here =>
            cases named
            exact ⟨beq_iff_eq.mp here, bytes, rfl⟩
          · cases named
        · cases named
      · rintro ⟨rfl, -⟩
        simp [fileName?]

/-- The names of the files in a directory. -/
theorem mem_fileNames_iff {place : Location} {workspace : Workspace} {name : String} :
    name ∈ workspace.fileNames place ↔
      ∃ bytes, (place ++ [name], Entry.file bytes) ∈ workspace.entries := by
  have same : name ∈ workspace.fileNames place ↔
      ∃ held ∈ workspace.entries, fileName? place held = some name := List.mem_filterMap
  simp only [same, fileName?_eq_some_iff]
  constructor
  · rintro ⟨⟨other, entry⟩, member, rfl, bytes, rfl⟩
    exact ⟨bytes, member⟩
  · rintro ⟨bytes, member⟩
    exact ⟨_, member, rfl, bytes, rfl⟩

/-- Where no place is held twice, no file has its name twice. -/
theorem nodup_fileNames {workspace : Workspace}
    (distinct : (workspace.entries.map Prod.fst).Nodup) (place : Location) :
    (workspace.fileNames place).Nodup := by
  refine List.Pairwise.filterMap (fileName? place) ?_ (List.pairwise_map.mp distinct)
  intro first second apart name named other namedOther same
  have here := (fileName?_eq_some_iff.mp named).1
  have there := (fileName?_eq_some_iff.mp namedOther).1
  exact apart (by rw [here, there, same])

/-- A path leads to a directory if it leads to a place where one is. -/
theorem entry_eq_directory_iff {path : String} {workspace : Workspace} :
    workspace.entry path = .ok .directory ↔ ∃ place, workspace.locate path = .ok place ∧
      workspace.entryAt? place = some .directory := by
  rw [Workspace.entry]
  cases workspace.locate path with
  | error cause => simp [bind, Except.bind]
  | ok place =>
      simp only [bind, Except.bind, Except.ok.injEq, exists_eq_left']
      cases workspace.entryAt? place with
      | none => simp [throw, throwThe, MonadExceptOf.throw]
      | some found => simp [pure, Except.pure]

/-- What was seen at a path is a directory. -/
theorem run_isDirectory_of_directory {path : String} {workspace : Workspace}
    (looked : (look path).run workspace = (.ok (some .directory), workspace)) :
    (isDirectory path).run workspace = (.ok true, workspace) := by
  rw [isDirectory, run_bind_ok looked]
  rfl

/-- What was seen at a path, if anything, is no directory. -/
theorem run_isDirectory_of_other {path : String} {workspace : Workspace} {found : Option Entry}
    (looked : (look path).run workspace = (.ok found, workspace))
    (other : found ≠ some .directory) :
    (isDirectory path).run workspace = (.ok false, workspace) := by
  rw [isDirectory, run_bind_ok looked]
  rcases found with _ | ⟨bytes⟩ | _
  · rfl
  · rfl
  · exact absurd rfl other

end Workspace

namespace MachineFile

/-- The machine files of a directory, each with its path: those of its files that have the suffix of
one, by their names.  Where there is no such directory, there are none.  None is listed twice, unless
a place were held twice. -/
structure Lists (directory : String) (workspace : Workspace) (paths : List Path) : Prop where
  sorted : paths.Pairwise fun first second => first.name ≤ second.name
  once : (workspace.entries.map Prod.fst).Nodup → paths.Nodup
  mem_iff : ∀ path, path ∈ paths ↔ path.suffix ∈ suffixes ∧
    ∃ name place bytes,
      path = { Path.ofText directory with parts := (Path.ofText directory).parts ++ [name] } ∧
        workspace.locate (Path.ofText directory).text = .ok place ∧
          workspace.entryAt? place = some .directory ∧
            (place ++ [name], Entry.file bytes) ∈ workspace.entries

/-- The name of a directory is so long that there can be no such directory. -/
def TooLong (directory : String) (workspace : Workspace) : Prop :=
  workspace.entry (Path.ofText directory).text = .error .nameTooLong

/-- Names in the order in which they are listed. -/
def inOrder (names : List String) : List String :=
  names.mergeSort fun left right => decide (left ≤ right)

/-- Every name comes after those that are less. -/
theorem pairwise_inOrder (names : List String) : (inOrder names).Pairwise (· ≤ ·) :=
  List.pairwise_mergeSort' (· ≤ ·) names

/-- The paths of the files in a directory, as they are listed. -/
def pathsIn (directory : String) (names : List String) : List Path :=
  ((inOrder names).map fun name =>
    ({ Path.ofText directory with parts := (Path.ofText directory).parts ++ [name] } : Path)).filter
      fun path => suffixes.contains path.suffix

/-- The files at the place of a directory are those that are listed. -/
theorem lists_pathsIn {directory : String} {workspace : Workspace} {place : Location}
    (located : workspace.locate (Path.ofText directory).text = .ok place)
    (stands : workspace.entryAt? place = some .directory) :
    Lists directory workspace (pathsIn directory (workspace.fileNames place)) where
  sorted := by
    refine List.Pairwise.filter _ (List.pairwise_map.mpr ?_)
    refine (pairwise_inOrder (workspace.fileNames place)).imp fun {first second} le => ?_
    simpa [Path.name] using le
  once distinct := by
    have names : (inOrder (workspace.fileNames place)).Nodup :=
      (List.mergeSort_perm _ _).nodup_iff.mpr (Workspace.nodup_fileNames distinct place)
    refine List.Pairwise.filter _ (List.pairwise_map.mpr (names.imp fun apart same => apart ?_))
    simpa using same
  mem_iff path := by
    rw [pathsIn, List.mem_filter, List.mem_map, and_comm, List.contains_iff_mem]
    refine and_congr_right fun _ => ?_
    constructor
    · rintro ⟨name, member, rfl⟩
      obtain ⟨bytes, held⟩ := Workspace.mem_fileNames_iff.mp (List.mem_mergeSort.mp member)
      exact ⟨name, place, bytes, rfl, located, stands, held⟩
    · rintro ⟨name, other, bytes, rfl, locatedOther, -, held⟩
      obtain rfl : place = other := Except.ok.inj (located.symm.trans locatedOther)
      exact ⟨name, List.mem_mergeSort.mpr (Workspace.mem_fileNames_iff.mpr ⟨bytes, held⟩), rfl⟩

/-- Where there is no directory, no file is listed. -/
theorem lists_nil {directory : String} {workspace : Workspace}
    (other : workspace.entry (Path.ofText directory).text ≠ .ok .directory) :
    Lists directory workspace [] where
  sorted := List.Pairwise.nil
  once _ := List.nodup_nil
  mem_iff path := by
    refine iff_of_false List.not_mem_nil ?_
    rintro ⟨-, name, place, bytes, -, located, stands, -⟩
    exact other (Workspace.entry_eq_directory_iff.mpr ⟨place, located, stands⟩)

/-- The machine files of a directory are listed, unless its name is too long. -/
theorem run_findIn (directory : String) (workspace : Workspace) :
    (TooLong directory workspace ∧ (findIn directory).run workspace =
      (.error (.storage ⟨.nameTooLong, (Path.ofText directory).text⟩), workspace)) ∨
    (¬TooLong directory workspace ∧ ∃ paths,
      (findIn directory).run workspace = (.ok paths, workspace) ∧
        Lists directory workspace paths) := by
  have seen := Workspace.run_look (Path.ofText directory).text workspace
  unfold TooLong
  cases leads : workspace.entry (Path.ofText directory).text with
  | error cause =>
      rw [leads] at seen
      by_cases long : cause = .nameTooLong
      · subst long
        refine .inl ⟨rfl, ?_⟩
        rw [findIn, run_bind_error]
        rw [Workspace.isDirectory]
        exact run_bind_error seen
      · refine .inr ⟨fun same => long (Except.error.inj same), [], ?_,
          lists_nil (by rw [leads]; rintro ⟨⟩)⟩
        have nothing : (Workspace.look (Path.ofText directory).text).run workspace =
            (.ok none, workspace) := by
          rw [seen]
          cases cause <;> first | rfl | exact absurd rfl long
        rw [findIn, run_bind_ok (Workspace.run_isDirectory_of_other nothing nofun)]
        rfl
  | ok found =>
      rw [leads] at seen
      refine .inr ⟨by rintro ⟨⟩, ?_⟩
      cases found with
      | file bytes =>
          rw [findIn, run_bind_ok (Workspace.run_isDirectory_of_other seen nofun)]
          exact ⟨[], rfl, lists_nil (by rw [leads]; rintro ⟨⟩)⟩
      | directory =>
          obtain ⟨place, located, stands⟩ := Workspace.entry_eq_directory_iff.mp leads
          refine ⟨_, ?_, lists_pathsIn located stands⟩
          rw [findIn, run_bind_ok (Workspace.run_isDirectory_of_directory seen)]
          have listed : (Workspace.listFiles (Path.ofText directory).text).run workspace =
              (.ok (inOrder (workspace.fileNames place)), workspace) := by
            rw [Workspace.listFiles, run_bind_ok (run_get workspace), located]
            rfl
          simp only [if_true]
          rw [run_bind_ok listed]
          rfl

end MachineFile

end TapeLab
