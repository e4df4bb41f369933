import TapeLab.Proofs.Session.Saying
import TapeLab.Proofs.Session.Wording
import TapeLab.Proofs.Workspace.Following
import TapeLab.Session.Program

/-!
# What is loaded

A machine is given by the text of a file or by a bundled source (`MachineChoice.given?`).  It is
put on the bench at its start, unless there is no such text or nothing to run
(`MachineChoice.Unusable`), and loading it is nothing but reading and talking (`run_putOnBench`).
-/

namespace TapeLab.Session

open Console Fallible

/-- The machine that a choice gives in a workspace: that of the text of its file, or that of its
bundled source. -/
def MachineChoice.given? (workspace : Workspace) : MachineChoice → Option Definition
  | .file path => (MachineFile.textIn? path workspace).map fun text => Source.read text
  | .bundled name => (Examples.find? name).map fun text => Source.read text

/-- A machine that cannot be loaded: its file is missing, cannot be read or holds no text, or it
has no rules. -/
def MachineChoice.Unusable (workspace : Workspace) (choice : MachineChoice) : Prop :=
  ∀ definition, choice.given? workspace = some definition → definition.rules = []

/-- A choice that can be made: a bundled machine is one of those that there are. -/
def MachineChoice.Offered : MachineChoice → Prop
  | .file _ => True
  | .bundled name => name ∈ Examples.names

/-- Every bundled machine has a source. -/
theorem exists_source_of_mem_names {name : String} (offered : name ∈ Examples.names) :
    ∃ source, Examples.find? name = some source := by
  have each : ∀ name ∈ Examples.names, (Examples.find? name).isSome = true := by decide
  exact Option.isSome_iff_exists.mp (each name offered)

/-- What is said of a definition before its machine is put on the bench. -/
def report (definition : Definition) : List Notice :=
  definition.problems.map Notice.skipped ++ .summary definition ::
    if definition.rules = [] then [.nothingToRun (.noRules definition.problems.length)] else []

/-- The machine of a definition at its start, unless it has no rules. -/
def started (settings : Settings) (definition : Definition) : Option Simulation :=
  if definition.rules = [] then none
  else some (.atStart definition settings.writeBlank settings.keepHistory)

/-- A report is of problems, and of what was read, and perhaps of there being nothing to run. -/
theorem forall_mem_report {definition : Definition} {property : Notice → Prop}
    (skipped : ∀ problem, property (.skipped problem)) (summary : property (.summary definition))
    (nothing : ∀ problems, property (.nothingToRun (.noRules problems))) :
    ∀ notice ∈ report definition, property notice := by
  intro notice member
  rcases List.mem_append.mp member with skips | later
  · obtain ⟨problem, -, rfl⟩ := List.mem_map.mp skips
    exact skipped problem
  · rcases List.mem_cons.mp later with rfl | empty
    · exact summary
    · split at empty
      · rw [List.mem_singleton.mp empty]
        exact nothing _
      · cases empty

theorem quick_of_mem_report (definition : Definition) :
    ∀ notice ∈ report definition, notice.Quick :=
  forall_mem_report (fun _ => nofun) nofun fun _ => nofun

/-- A report is meant, and exposes nothing. -/
theorem meant_of_mem_report (definition : Definition) :
    ∀ notice ∈ report definition, notice.Meant ∧ notice.Harmless :=
  forall_mem_report (fun _ => ⟨trivial, nofun⟩) ⟨trivial, nofun⟩ fun problems =>
    ⟨⟨problems, rfl⟩, nofun⟩

/-- The table of the machine files that can be chosen, if there are any. -/
def listing (paths : List Path) : List Notice :=
  if paths.isEmpty then [] else [.files paths]

theorem quick_of_mem_listing (paths : List Path) : ∀ notice ∈ listing paths, notice.Quick := by
  intro notice member
  unfold listing at member
  split at member
  · cases member
  · rw [List.mem_singleton.mp member]
    nofun

section Terminal

variable [Terminal]

/-- The definition of a machine is what its choice gives.  If it gives nothing, that is because of
its file, and is said to be so. -/
theorem run_attempt_definition {choice : MachineChoice} (offered : choice.Offered)
    (state : State) :
    (∃ definition, choice.given? state.workspace = some definition ∧
      ExceptT.run (attempt Fault.concernsFile choice.definition) state = (.ok (.ok definition), state)) ∨
    (choice.given? state.workspace = none ∧ ∃ fault,
      ExceptT.run (attempt Fault.concernsFile choice.definition) state = (.ok (.error fault), state)) := by
  cases choice with
  | file path =>
      rw [run_attempt, MachineChoice.definition, MachineChoice.given?]
      rcases MachineFile.run_read path none state.workspace with
        ⟨text, found, succeeds⟩ | ⟨nothing, fault, concerns, fails⟩
      · rw [found, succeeds]
        exact Or.inl ⟨_, rfl, rfl⟩
      · rw [nothing, fails]
        simp only [concerns, if_true]
        exact Or.inr ⟨rfl, fault, rfl⟩
  | bundled name =>
      obtain ⟨source, found⟩ := exists_source_of_mem_names offered
      rw [run_attempt, MachineChoice.definition, MachineChoice.given?, Examples.machine, found]
      exact Or.inl ⟨_, rfl, rfl⟩

/-- A machine is put on the bench at its start, unless it has no rules, once all that is to be
said of it was shown. -/
theorem run_putOnBench (settings : Settings) (definition : Definition) (state : State) :
    ExceptT.run (putOnBench settings definition) state =
      ((verdict (report definition)).map fun _ => started settings definition,
        state.telling (shownOf (report definition))) := by
  have said : putOnBench settings definition = (do
      (report definition).forM say
      return started settings definition) := by
    rw [putOnBench, report, started, forM_say_append, forM_say_cons, Simulation.start,
      Definition.isEmpty]
    cases definition.rules with
    | nil => simp [forM_say_cons, forM_say_nil]
    | cons rule others => simp [forM_say_nil]
  rw [said, run_bind, run_forM_say]
  cases verdict (report definition) <;> rfl

/-- A terminal that shows what nests shows all of the report. -/
theorem run_putOnBench_shown (disarms : Terminal.Disarms) (nested : Terminal.ShowsNested)
    (settings : Settings) (definition : Definition) (state : State) :
    ExceptT.run (putOnBench settings definition) state =
      (.ok (started settings definition), state.telling (report definition)) := by
  have shows : ∀ notice ∈ report definition, notice.refusal? = none := by
    intro notice member
    obtain ⟨meant, harmless⟩ := meant_of_mem_report definition notice member
    exact refusal?_eq_none disarms nested meant harmless
  rw [run_putOnBench, verdict_of_forall shows, shownOf_of_forall shows]
  rfl

/-! ### Choosing a file -/

/-- The path of a machine file is chosen. -/
def choosePath (settings : Settings) : Session String := do
  let paths ← onWorkspace (MachineFile.findIn settings.machinesDirectory)
  (listing paths).forM say
  let answer ← ask fileQuestion
  settle (chosenPath paths answer)

theorem choosePath_talks (settings : Settings) : Relates Talks (choosePath settings) := by
  refine (onWorkspace_talks (MachineFile.findIn_reads _)).bind fun paths => ?_
  exact (forM_say_talks (quick_of_mem_listing paths)).bind fun _ =>
    (ask_talks _).bind fun _ => settle_talks _

/-- A machine file that is chosen is loaded from its path. -/
theorem loadFile_eq (settings : Settings) : loadFile settings = (do
    let path ← choosePath settings
    match ← attempt Fault.concernsFile (MachineFile.read path) with
    | .ok definition => return loadedAs path (← putOnBench settings definition)
    | .error fault =>
      say (.unreadable fault)
      return none) := by
  unfold loadFile choosePath
  simp only [bind_assoc]
  refine bind_congr fun paths => ?_
  unfold listing
  split
  · rfl
  · exact congrArg (· >>= fun _ => _) (@bind_pure_unit _ _ _ (say (.files paths))).symm

end Terminal

end TapeLab.Session
