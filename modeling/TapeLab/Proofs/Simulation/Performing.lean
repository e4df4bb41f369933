import TapeLab.Proofs.Session.Loops
import TapeLab.Simulation.Request

/-!
# What actions do to a simulation

No action changes the machine of a simulation or takes its head off the tape
(`Simulation.Simulates`).  A run is the run of its configuration; if history is kept, the
trace of the run is recorded (`Simulation.run_fst`).
-/

namespace TapeLab

/-- A run that begins on the tape stays on it. -/
theorem Config.OnTape.run {config : Config} (onTape : config.OnTape) (table : Table)
    (writeBlank : Bool) (cap : Nat) : (config.run table writeBlank cap).OnTape := by
  rw [Config.run_eq_stage]
  exact onTape.stage table _ cap

/-- What the steps under a table keep, its runs keep. -/
theorem Config.run_keeps {table : Table} {Kept : Config → Prop}
    (step_keeps : ∀ {config writeBlank}, Kept config → Kept (config.step table writeBlank))
    {config : Config} (kept : Kept config) (writeBlank : Bool) (cap : Nat) :
    Kept (config.run table writeBlank cap) := by
  rw [Config.run_eq_stage]
  induction cap with
  | zero => exact kept
  | succ cap inductionHypothesis => exact step_keeps inductionHypothesis

namespace Simulation

variable {simulation start : Simulation} {machine : Definition}

/-- A run goes where the run of its configuration goes, and records the trace of it if
history is kept. -/
theorem runObserved_eq_record {View : Type} {observe : View → Config → View} (cap : Nat)
    (seen : View) :
    (simulation.runObserved observe cap seen).1 =
      { simulation with
        config := simulation.config.run simulation.table simulation.writeBlank cap
        history :=
          if simulation.keepHistory then
            simulation.history ++
              (simulation.config.trace simulation.table simulation.writeBlank cap).toArray
          else simulation.history } := by
  induction cap generalizing simulation seen with
  | zero => simp [runObserved, Config.run, Config.trace]
  | succ cap inductionHypothesis =>
      cases done : simulation.config.finished with
      | true =>
          simp [runObserved, finished, done, Config.run_of_finished done,
            Config.trace_of_finished done]
      | false =>
          have later := @inductionHypothesis simulation.step (observe seen simulation.step.config)
          rw [Config.run_succ done, Config.trace_succ done]
          simp only [runObserved, finished, done, Bool.false_eq_true, if_false, later]
          cases keeps : simulation.keepHistory <;> simp [step, keeps]

/-- What a run of a simulation leaves behind. -/
theorem run_fst (cap : Nat) :
    (simulation.run cap).1 =
      { simulation with
        config := simulation.config.run simulation.table simulation.writeBlank cap
        history :=
          if simulation.keepHistory then
            simulation.history ++
              (simulation.config.trace simulation.table simulation.writeBlank cap).toArray
          else simulation.history } :=
  runObserved_eq_record cap 0

/-- Actions are performed one after another. -/
theorem performAll_append (earlier later : List Action) :
    simulation.performAll (earlier ++ later) =
      (simulation.performAll earlier).performAll later :=
  List.foldl_append

/-- The last of some actions is performed last. -/
theorem performAll_concat (actions : List Action) (action : Action) :
    simulation.performAll (actions ++ [action]) =
      (simulation.performAll actions).perform action :=
  performAll_append actions [action]

/-- A simulation of a machine, with its head on the tape. -/
structure Simulates (machine : Definition) (simulation : Simulation) : Prop where
  definition : simulation.definition = machine
  table : simulation.table = Table.ofDefinition machine
  onTape : simulation.config.OnTape

/-- A machine that has something to run is simulated from its start. -/
theorem start_eq_ok_iff {writeBlank keepHistory : Bool} :
    Simulation.start machine writeBlank keepHistory = .ok start ↔
      machine.isEmpty = false ∧ start = atStart machine writeBlank keepHistory := by
  unfold Simulation.start
  cases machine.isEmpty with
  | true => simp
  | false => simpa using eq_comm

/-- A simulation begins with its machine. -/
theorem simulates_atStart (machine : Definition) (writeBlank keepHistory : Bool) :
    (atStart machine writeBlank keepHistory).Simulates machine :=
  ⟨rfl, rfl, machine.initial_onTape⟩

/-- No action changes the machine or takes the head off the tape. -/
theorem Simulates.perform (simulates : simulation.Simulates machine) (action : Action) :
    (simulation.perform action).Simulates machine := by
  obtain ⟨rfl, table, onTape⟩ := simulates
  cases action with
  | step => exact ⟨rfl, table, onTape.step⟩
  | run cap =>
      rw [Simulation.perform, run_fst]
      exact ⟨rfl, table, onTape.run _ _ cap⟩
  | reset => exact ⟨rfl, table, Definition.initial_onTape _⟩
  | setKeepHistory keep => exact ⟨rfl, table, onTape⟩
  | setWriteBlank allow => exact ⟨rfl, table, onTape⟩

/-- So it is after any actions. -/
theorem Simulates.performAll (simulates : simulation.Simulates machine)
    (actions : List Action) : (simulation.performAll actions).Simulates machine := by
  induction actions generalizing simulation with
  | nil => exact simulates
  | cons action later inductionHypothesis => exact inductionHypothesis (simulates.perform action)

/-- What holds of the start of a machine, and is kept by its steps, is kept by actions. -/
theorem Simulates.performAll_keeps {Kept : Config → Prop} (initial : Kept machine.initial)
    (step_keeps : ∀ {config writeBlank}, Kept config →
      Kept (config.step (Table.ofDefinition machine) writeBlank))
    (simulates : simulation.Simulates machine) (kept : Kept simulation.config)
    (actions : List Action) : Kept (simulation.performAll actions).config := by
  induction actions generalizing simulation with
  | nil => exact kept
  | cons action later inductionHypothesis =>
      refine inductionHypothesis (simulates.perform action) ?_
      obtain ⟨rfl, table, -⟩ := simulates
      cases action with
      | step =>
          rw [Simulation.perform, Simulation.step, table]
          exact step_keeps kept
      | run cap =>
          rw [Simulation.perform, run_fst, table]
          exact Config.run_keeps step_keeps kept _ cap
      | reset => exact initial
      | setKeepHistory keep => exact kept
      | setWriteBlank allow => exact kept

/-- A simulation that is reset is as one that has just been started with its switches. -/
theorem Simulates.reset_eq (simulates : simulation.Simulates machine) :
    simulation.reset = atStart machine simulation.writeBlank simulation.keepHistory := by
  obtain ⟨rfl, table, _⟩ := simulates
  simp [Simulation.reset, atStart, table]

/-- Only the actions among requests change a simulation. -/
theorem converse_fst (requests : List Request) :
    (simulation.converse requests).1 =
      simulation.performAll (requests.filterMap Request.action?) := by
  induction requests generalizing simulation with
  | nil => rfl
  | cons request later inductionHypothesis =>
      simp only [converse, inductionHypothesis]
      cases request <;> rfl

end Simulation

end TapeLab
