import TapeLab.Proofs.Pool.Attempting
import TapeLab.Proofs.Workspace.Directories
import TapeLab.Proofs.Workspace.Following

/-!
# Machines looked at one at a time

A pool run without batches, buffers and files to write: `solosFrom` looks at the machines of
some paths in order, each in the workspace as it is when its turn comes.  The only thing that
the machines before it can have changed there is that the directory of the list of machines
that did not end was made (`Plan.promoting`); where it stands, each machine is looked at by
itself (`solosFrom_of_stands`).

Attempting the machines of a batch comes to the same, in any workspace that looks the same to
them (`gathers_of_forM_attempt`).
-/

namespace TapeLab

namespace Workspace

/-- Two workspaces with the same directories, and with the same files at some paths. -/
structure Alike (paths : List String) (first second : Workspace) : Prop extends
    SameDirectories first second where
  held : ∀ path ∈ paths, second.held? path = first.held? path

variable {paths : List String} {first second third : Workspace}

theorem Alike.refl (paths : List String) (workspace : Workspace) :
    Alike paths workspace workspace where
  toSameDirectories := .refl workspace
  held := fun _ _ => rfl

theorem Alike.trans (alike : Alike paths first second) (later : Alike paths second third) :
    Alike paths first third where
  toSameDirectories := alike.toSameDirectories.trans later.toSameDirectories
  held := fun path member => (later.held path member).trans (alike.held path member)

theorem Alike.symm (alike : Alike paths first second) : Alike paths second first where
  toSameDirectories := alike.toSameDirectories.symm
  held := fun path member => (alike.held path member).symm

end Workspace

namespace Pool

open Fallible Json Workspace

/-- Whether a machine did not end. -/
def Solo.isPromoted : Solo → Bool
  | .recorded record => record.status == .running
  | _ => false

/-- The directory of the list of machines that did not end. -/
def Plan.promotionFolder (plan : Plan) : Path :=
  (Path.ofText plan.longRunners).parent

/-- The workspace with the directory of the list of machines that did not end. -/
def Plan.promoting (plan : Plan) (workspace : Workspace) : Workspace :=
  workspace.withDirectories (workspace.ways plan.promotionFolder)

/-- The workspace after the machine of a path was looked at. -/
def settle (plan : Plan) (workspace : Workspace) (path : String) : Workspace :=
  if (solo plan workspace path).isPromoted then plan.promoting workspace else workspace

/-- What becomes of the machines of some paths, one at a time. -/
def solosFrom (plan : Plan) : Workspace → List String → List (String × Solo)
  | _, [] => []
  | workspace, path :: rest =>
    (path, solo plan workspace path) :: solosFrom plan (settle plan workspace path) rest

/-- The records of machines that were looked at. -/
def recordsOf (solos : List (String × Solo)) : List RunRecord :=
  solos.filterMap fun found => found.2.record?

/-- The paths of the machines that could be read. -/
def readPaths (solos : List (String × Solo)) : List String :=
  (solos.filter fun found => found.2.isCompleted).map Prod.fst

variable {plan : Plan} {workspace first second : Workspace} {path : String}

/-- Machines are looked at after others from where those left the workspace. -/
theorem solosFrom_append (plan : Plan) (workspace : Workspace) (early late : List String) :
    solosFrom plan workspace (early ++ late) =
      solosFrom plan workspace early ++ solosFrom plan (early.foldl (settle plan) workspace) late := by
  induction early generalizing workspace with
  | nil => rfl
  | cons path rest inductionHypothesis =>
      rw [List.cons_append, solosFrom, inductionHypothesis]
      rfl

/-- The path at which a machine is read. -/
def shown (path : String) : String :=
  (Path.ofText path).text

section Looking

variable {paths pending : List String}

/-- In workspaces that look the same the same becomes of a machine. -/
theorem solo_congr (alike : Alike paths first second) (member : shown path ∈ paths) :
    solo plan second path = solo plan first path := by
  have read := MachineFile.read_congr none alike.toSameDirectories (alike.held _ member)
  have reads := MachineFile.read_reads path none
  have ran : ((outcome plan path).run second).1 = ((outcome plan path).run first).1 := by
    unfold outcome
    split
    · exact bind_congr reads read fun _ _ => rfl
    · refine bind_congr reads read fun definition _ => ?_
      split <;> rfl
  simp only [solo, ran]

/-- What files hold where directories may have been added. -/
theorem held?_withDirectories (places : List Location) (workspace : Workspace) (path : String) :
    (workspace.withDirectories places).held? path =
      if workspace.placeOf path ∈ places then none else workspace.held? path := by
  have place : (workspace.withDirectories places).placeOf path = workspace.placeOf path :=
    placeOf_congr rfl path
  simp only [held?, place, entryAt?_withDirectories]
  by_cases here : workspace.placeOf path ∈ places <;> simp [here]

/-- Workspaces that look the same still do when the same directory is made in both. -/
theorem alike_promoting (plan : Plan) (alike : Alike paths first second) :
    Alike paths (plan.promoting first) (plan.promoting second) where
  current := alike.current
  directories := by
    intro place
    simp only [Plan.promoting, entryAt?_withDirectories, ways_congr alike.current]
    split
    · rfl
    · exact alike.directories place
  held := by
    intro path member
    simp only [Plan.promoting, held?_withDirectories, ways_congr alike.current,
      placeOf_congr alike.current, alike.held path member]

/-- Workspaces that look the same still do after a machine was looked at. -/
theorem alike_settle (alike : Alike paths first second) (member : shown path ∈ paths) :
    Alike paths (settle plan first path) (settle plan second path) := by
  simp only [settle, solo_congr alike member]
  split
  · exact alike_promoting plan alike
  · exact alike

/-- Looking at machines takes no directory away. -/
theorem directory_of_foldl_settle (plan : Plan) (pending : List String) {place : Location}
    (stands : workspace.entryAt? place = some .directory) :
    (pending.foldl (settle plan) workspace).entryAt? place = some .directory := by
  induction pending generalizing workspace with
  | nil => exact stands
  | cons path rest inductionHypothesis =>
      refine inductionHypothesis ?_
      simp only [settle]
      split
      · rw [Plan.promoting, entryAt?_withDirectories]
        split
        · rfl
        · exact stands
      · exact stands

/-- In workspaces that look the same the same becomes of all machines. -/
theorem solosFrom_congr (alike : Alike paths first second)
    (covered : ∀ path ∈ pending, shown path ∈ paths) :
    solosFrom plan second pending = solosFrom plan first pending ∧
      Alike paths (pending.foldl (settle plan) first) (pending.foldl (settle plan) second) := by
  induction pending generalizing first second with
  | nil => exact ⟨rfl, alike⟩
  | cons path rest inductionHypothesis =>
      have member := covered path List.mem_cons_self
      obtain ⟨later, after⟩ := inductionHypothesis (alike_settle alike member)
        fun other isOther => covered other (List.mem_cons_of_mem path isOther)
      refine ⟨?_, after⟩
      rw [solosFrom, solosFrom, solo_congr alike member, later]

section Standing

variable (stands : ∀ place ∈ workspace.ways plan.promotionFolder,
  workspace.entryAt? place = some .directory)

include stands

/-- The directory of the list of machines that did not end need not be made where it stands. -/
theorem alike_promoting_of_stands (paths : List String) :
    Alike paths workspace (plan.promoting workspace) where
  current := rfl
  directories := by
    intro place
    rw [Plan.promoting, entryAt?_withDirectories]
    split
    · next onWay => simp [stands place onWay]
    · rfl
  held := by
    intro path _
    rw [Plan.promoting, held?_withDirectories]
    split
    · next onWay => rw [held?, stands _ onWay]
    · rfl

/-- Where that directory stands, each machine is looked at in the workspace as it is. -/
theorem solosFrom_of_stands (pending : List String) :
    solosFrom plan workspace pending = pending.map fun path => (path, solo plan workspace path) := by
  induction pending with
  | nil => rfl
  | cons path rest inductionHypothesis =>
      have settled : Alike (rest.map shown) workspace (settle plan workspace path) := by
        unfold settle
        split
        · exact alike_promoting_of_stands stands _
        · exact .refl _ _
      have later : solosFrom plan (settle plan workspace path) rest =
          solosFrom plan workspace rest :=
        (solosFrom_congr settled fun other member => List.mem_map_of_mem member).1
      rw [solosFrom, later, inductionHypothesis, List.map_cons]

end Standing

end Looking

/-- A machine that did not end can be added to the list of those that did not. -/
def Promotable (plan : Plan) (path : String) (workspace : Workspace) : Prop :=
  (solo plan workspace path).isPromoted = true → ((promote plan path).run workspace).1 = .ok ()

/-- The workspace after the machine of a path was attempted. -/
def attempted (plan : Plan) (path : String) (workspace : Workspace) : Workspace :=
  if (solo plan workspace path).isPromoted then ((promote plan path).run workspace).2
  else workspace

/-- What attempting a machine adds to the state of a run. -/
structure Looks (plan : Plan) (path : String) (items : List Value) (before after : State) :
    Prop where
  workspace : after.workspace = attempted plan path before.workspace
  batch : after.batch = before.batch ++ (solo plan before.workspace path).record?.toList
  completed : after.completed = .list
    (items ++ if (solo plan before.workspace path).isCompleted then [.text path] else [])

/-- With a step cap, a machine that cannot be run cannot because of a file. -/
theorem concernsFile_of_outcome {cap : Nat} (capped : plan.cap = some cap) {fault : Fault}
    (fails : ((outcome plan path).run workspace).1 = .error fault) :
    fault.concernsFile = true := by
  simp only [outcome, capped, MachineFile.simulate] at fails
  cases ended : (MachineFile.read path).run workspace with
  | mk result after =>
      cases result with
      | ok definition =>
          rw [run_bind_ok ended] at fails
          cases fails
      | error cause =>
          rw [run_bind_error ended] at fails
          cases fails
          exact MachineFile.concernsFile_of_read (by rw [ended])

/-- What running a machine for a batch adds to the state of a run, if it can be run. -/
theorem looks_of_simulate {items : List Value} {before : State} {definition : Definition}
    {final : Option Config}
    (found : ((outcome plan path).run before.workspace).1 = .ok (definition, final))
    (listed : before.completed = .list items)
    (promotable : Promotable plan path before.workspace) :
    ((simulate plan path).run before).1 = .ok () ∧
      Looks plan path items before ((simulate plan path).run before).2 := by
  cases final with
  | none =>
      have ruleless : solo plan before.workspace path = .ruleless := by simp only [solo, found]
      rw [run_simulate_of_ruleless listed found]
      refine ⟨rfl, ⟨?_, ?_, ?_⟩⟩
      · rw [attempted, ruleless]
        rfl
      · rw [ruleless]
        exact (List.append_nil _).symm
      · rw [ruleless]
        rfl
  | some config =>
      let record := RunRecord.ofRun path definition config plan.moment
      have recorded : solo plan before.workspace path = .recorded record := by
        simp only [solo, found, record]
      have status : (solo plan before.workspace path).isPromoted = (config.status == .running) := by
        rw [recorded]
        rfl
      have looks : Looks plan path items before
          { (before.withRecord record).withWorkspace (attempted plan path before.workspace) with
            completed := .list (items ++ [.text path]) } := by
        refine ⟨rfl, ?_, ?_⟩ <;> rw [recorded] <;> rfl
      cases running : config.status == .running with
      | false =>
          rw [run_simulate_of_ended listed found running]
          rw [attempted, status, running] at looks
          exact ⟨rfl, looks⟩
      | true =>
          have promoted := run_eq_of_fst (promotable (status.trans running))
          rw [run_simulate_of_running listed found running, promoted]
          rw [attempted, if_pos (status.trans running)] at looks
          exact ⟨rfl, looks⟩

/-- Attempting a machine comes to what becomes of it by itself. -/
theorem looks_of_attempt {cap : Nat} {items : List Value} {before : State}
    (capped : plan.cap = some cap) (listed : before.completed = .list items)
    (promotable : Promotable plan path before.workspace) :
    ((attempt plan path).run before).1 = .ok () ∧
      Looks plan path items before ((attempt plan path).run before).2 := by
  cases found : ((outcome plan path).run before.workspace).1 with
  | error fault =>
      have failed : solo plan before.workspace path = .failed fault := by simp only [solo, found]
      rw [run_attempt_of_error (run_simulate_of_error found),
        if_pos (concernsFile_of_outcome capped found)]
      refine ⟨rfl, ⟨?_, ?_, ?_⟩⟩
      · rw [attempted, failed]
        rfl
      · rw [failed]
        exact (List.append_nil _).symm
      · rw [failed]
        exact listed.trans (congrArg Value.list (List.append_nil _).symm)
  | ok value =>
      obtain ⟨definition, final⟩ := value
      obtain ⟨succeeds, looks⟩ := looks_of_simulate found listed promotable
      rw [run_attempt_of_ok (run_eq_of_fst succeeds)]
      exact ⟨rfl, looks.workspace, looks.batch, looks.completed⟩

end Pool

end TapeLab
