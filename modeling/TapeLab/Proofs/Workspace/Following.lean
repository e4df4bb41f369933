import TapeLab.Proofs.Workspace.Held

/-!
# What reading depends on

What is read at a path depends on the directories, on the file at the place of the path, and
on nothing else in a workspace.  Only one thing can tell two such workspaces apart: why a path
leads nowhere, which is not asked when a machine is read (`MachineFile.read_congr`).
-/

namespace TapeLab

open Fallible

/-- A cause as far as reading tells it: a path that leads nowhere might as well be missing. -/
def StorageCause.blurred : StorageCause → StorageCause
  | .nameTooLong => .nameTooLong
  | _ => .missing

namespace Workspace

variable {first second : Workspace} {path : String}

/-- With the same directories, pieces lead to the same place, or nowhere for causes that reading
does not tell apart. -/
theorem follow_congr (same : SameDirectories first second) (place : Location)
    (pieces : List String) :
    (second.follow place pieces).mapError StorageCause.blurred =
      (first.follow place pieces).mapError StorageCause.blurred := by
  have nowhere : ∀ workspace : Workspace, ∀ place piece rest,
      workspace.entryAt? place ≠ some .directory →
      (workspace.follow place (piece :: rest)).mapError StorageCause.blurred =
        .error .missing := by
    intro workspace place piece rest closed
    rw [follow]
    split
    · rfl
    · rfl
    · next stands => exact absurd stands closed
  induction pieces generalizing place with
  | nil => rfl
  | cons piece rest inductionHypothesis =>
      by_cases stands : first.entryAt? place = some .directory
      · simp only [follow, stands, (same.directories place).mpr stands]
        split
        · exact inductionHypothesis place
        · split
          · exact inductionHypothesis place.dropLast
          · split
            · rfl
            · exact inductionHypothesis (place ++ [piece])
      · have standsNot : second.entryAt? place ≠ some .directory :=
          fun stands' => stands ((same.directories place).mp stands')
        rw [nowhere first place piece rest stands, nowhere second place piece rest standsNot]

/-- Paths begin at the same place. -/
theorem origin_congr (current : second.current = first.current) (path : String) :
    second.origin path = first.origin path := by
  simp only [origin, current]

/-- With the same directories and the same file at its place, the same stands there. -/
theorem entryAt?_placeOf_congr (same : SameDirectories first second)
    (held : second.held? path = first.held? path) :
    second.entryAt? (second.placeOf path) = first.entryAt? (first.placeOf path) := by
  ext entry
  cases entry with
  | directory =>
      rw [placeOf_congr same.current]
      exact same.directories (first.placeOf path)
  | file bytes => exact held?_eq_some_iff.symm.trans (held ▸ held?_eq_some_iff)

/-- With the same directories and the same file at its place, a path leads to the same. -/
theorem entry_congr (same : SameDirectories first second)
    (held : second.held? path = first.held? path) :
    (second.entry path).mapError StorageCause.blurred =
      (first.entry path).mapError StorageCause.blurred := by
  have located : (second.locate path).mapError StorageCause.blurred =
      (first.locate path).mapError StorageCause.blurred := by
    simp only [locate, origin_congr same.current]
    cases first.origin path with
    | error cause => rfl
    | ok start => exact follow_congr same start (pathPieces path)
  have stands := entryAt?_placeOf_congr same held
  simp only [entry]
  cases before : first.locate path with
  | error cause =>
      rw [before] at located
      cases after : second.locate path with
      | error other =>
          rw [after] at located
          have causes : other.blurred = cause.blurred := Except.error.inj located
          exact congrArg Except.error causes
      | ok place =>
          rw [after] at located
          cases located
  | ok place =>
      rw [before] at located
      cases after : second.locate path with
      | error other =>
          rw [after] at located
          cases located
      | ok other =>
          obtain rfl := eq_placeOf before
          obtain rfl := eq_placeOf after
          simp only [bind, Except.bind, stands]

/-- What is seen at a path, by the blurred causes. -/
theorem run_look (path : String) (workspace : Workspace) :
    (look path).run workspace =
      match (workspace.entry path).mapError StorageCause.blurred with
      | .ok found => (.ok (some found), workspace)
      | .error .nameTooLong => (.error (.storage ⟨.nameTooLong, path⟩), workspace)
      | .error _ => (.ok none, workspace) := by
  simp only [look, run_bind_ok (run_get workspace)]
  cases workspace.entry path with
  | ok found => rfl
  | error cause => cases cause <;> rfl

/-- The same is seen. -/
theorem look_congr (same : SameDirectories first second)
    (held : second.held? path = first.held? path) :
    ((look path).run second).1 = ((look path).run first).1 := by
  rw [run_look, run_look, entry_congr same held]
  split <;> rfl

/-- What is seen is what the path leads to. -/
theorem entry_of_look {workspace : Workspace} {found : Entry}
    (seen : ((look path).run workspace).1 = .ok (some found)) :
    workspace.entry path = .ok found := by
  simp only [look, run_bind_ok (run_get workspace)] at seen
  cases leads : workspace.entry path with
  | ok other =>
      rw [leads] at seen
      cases seen
      rfl
  | error cause =>
      rw [leads] at seen
      cases cause <;> cases seen

/-- The text of what a path leads to. -/
def textOf (path : String) : Entry → Except Fault String
  | .directory => .error (.storage ⟨.isDirectory, path⟩)
  | .file bytes =>
    match Text.decode bytes with
    | .ok text => .ok (String.ofList (Text.foldReturns text.toList))
    | .error fault => .error (.notUtf8 fault)

/-- What a path leads to is read as its text. -/
theorem run_readText {workspace : Workspace} {found : Entry}
    (leads : workspace.entry path = .ok found) :
    (readText path).run workspace = (textOf path found, workspace) := by
  have reached : (orFail path (workspace.entry path)).run workspace = (.ok found, workspace) := by
    rw [leads]
    rfl
  cases found with
  | directory =>
      have fails : (readBytes path).run workspace =
          (.error (.storage ⟨.isDirectory, path⟩), workspace) := by
        rw [readBytes, run_bind_ok (run_get workspace), run_bind_ok reached]
        rfl
      rw [readText, run_bind_error fails, textOf]
  | file bytes =>
      have succeeds : (readBytes path).run workspace = (.ok bytes, workspace) := by
        rw [readBytes, run_bind_ok (run_get workspace), run_bind_ok reached]
        rfl
      rw [readText, run_bind_ok succeeds, textOf]
      cases Text.decode bytes <;> rfl

/-- What reads and then goes on ends in the same way if both of its parts do. -/
theorem bind_congr {α β : Type} {read : Storage α} {next : α → Storage β}
    (reads : Relates Eq read) (same : (read.run second).1 = (read.run first).1)
    (nextSame : ∀ value, (read.run first).1 = .ok value →
      ((next value).run second).1 = ((next value).run first).1) :
    (ExceptT.run (read >>= next) second).1 = (ExceptT.run (read >>= next) first).1 := by
  have whole : ∀ workspace, read.run workspace = ((read.run workspace).1, workspace) :=
    fun workspace => Prod.ext rfl (run_snd_of_reads reads workspace)
  cases ended : (read.run first).1 with
  | error fault =>
      rw [ended] at same
      rw [run_bind_error ((whole first).trans (by rw [ended])),
        run_bind_error ((whole second).trans (by rw [same]))]
  | ok value =>
      rw [ended] at same
      rw [run_bind_ok ((whole first).trans (by rw [ended])),
        run_bind_ok ((whole second).trans (by rw [same]))]
      exact nextSame value ended

/-- What is read at a path that may lead nowhere is the same. -/
theorem look_readText_congr {α : Type} {missing : Except Fault α} {read : String → Except Fault α}
    (same : SameDirectories first second) (held : second.held? path = first.held? path) :
    let reading : Storage α := do
      match ← look path with
      | none => liftExcept missing
      | some _ => liftExcept (read (← readText path))
    (reading.run second).1 = (reading.run first).1 := by
  refine bind_congr (look_reads path) (look_congr same held) fun found seen => ?_
  cases found with
  | none => rw [run_liftExcept, run_liftExcept]
  | some entry =>
      have after := entry_of_look ((look_congr same held).trans seen)
      refine bind_congr (readText_reads path) ?_ fun text _ => ?_
      · rw [run_readText after, run_readText (entry_of_look seen)]
      · rw [run_liftExcept, run_liftExcept]

end Workspace

/-- With the same directories and the same machine file, the same machine is read. -/
theorem MachineFile.read_congr {first second : Workspace} {path : String}
    (dialect : Option Dialect) (same : Workspace.SameDirectories first second)
    (held : second.held? (Path.ofText path).text = first.held? (Path.ofText path).text) :
    ((MachineFile.read path dialect).run second).1 =
      ((MachineFile.read path dialect).run first).1 :=
  @Workspace.look_readText_congr _ _ _ _ (.error (.machineFileMissing (Path.ofText path).text))
    (fun text => .ok (Source.read text dialect)) same held

/-- The text of the file that a path leads to, in which only line feeds end lines; none if there
is no such file or it holds no text. -/
def MachineFile.textIn? (path : String) (workspace : Workspace) : Option String :=
  match workspace.entry (Path.ofText path).text with
  | .ok (.file bytes) =>
    (Text.decode bytes).toOption.map fun text => String.ofList (Text.foldReturns text.toList)
  | _ => none

/-- A machine is read from the text of its file.  Where there is no such text, reading fails
because of the file. -/
theorem MachineFile.run_read (path : String) (dialect : Option Dialect) (workspace : Workspace) :
    (∃ text, MachineFile.textIn? path workspace = some text ∧
      (MachineFile.read path dialect).run workspace = (.ok (Source.read text dialect), workspace)) ∨
    (MachineFile.textIn? path workspace = none ∧ ∃ fault, fault.concernsFile = true ∧
      (MachineFile.read path dialect).run workspace = (.error fault, workspace)) := by
  have seen := Workspace.run_look (Path.ofText path).text workspace
  unfold MachineFile.textIn?
  cases leads : workspace.entry (Path.ofText path).text with
  | error cause =>
      refine Or.inr ⟨rfl, ?_⟩
      by_cases long : cause = .nameTooLong
      · have fails : (Workspace.look (Path.ofText path).text).run workspace =
            (.error (.storage ⟨.nameTooLong, (Path.ofText path).text⟩), workspace) := by
          rw [seen, leads, long]
          rfl
        rw [MachineFile.read, run_bind_error fails]
        exact ⟨_, rfl, rfl⟩
      · have nothing : (Workspace.look (Path.ofText path).text).run workspace =
            (.ok none, workspace) := by
          rw [seen, leads]
          cases cause <;> first | rfl | exact absurd rfl long
        rw [MachineFile.read, run_bind_ok nothing]
        exact ⟨_, rfl, rfl⟩
  | ok found =>
      have there : (Workspace.look (Path.ofText path).text).run workspace =
          (.ok (some found), workspace) := by
        rw [seen, leads]
        rfl
      have text := Workspace.run_readText leads
      rw [MachineFile.read, run_bind_ok there]
      cases found with
      | directory => exact Or.inr ⟨rfl, _, rfl, run_bind_error text⟩
      | file bytes =>
          simp only
          cases decodes : Text.decode bytes with
          | ok decoded =>
              rw [Workspace.textOf, decodes] at text
              exact Or.inl ⟨_, rfl, run_bind_ok text⟩
          | error fault =>
              rw [Workspace.textOf, decodes] at text
              exact Or.inr ⟨rfl, _, rfl, run_bind_error text⟩

/-- A machine that cannot be read cannot because of a file. -/
theorem MachineFile.concernsFile_of_read {workspace : Workspace} {path : String}
    {dialect : Option Dialect} {fault : Fault}
    (fails : ((MachineFile.read path dialect).run workspace).1 = .error fault) :
    fault.concernsFile = true := by
  rcases MachineFile.run_read path dialect workspace with
    ⟨text, -, succeeds⟩ | ⟨-, other, concerns, ended⟩
  · rw [succeeds] at fails
    cases fails
  · rw [ended] at fails
    cases fails
    exact concerns

end TapeLab
