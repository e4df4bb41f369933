import Mathlib.Data.Finset.Lattice.Fold
import Mathlib.Order.Lattice.Nat
import TapeLab.Proofs.Machine.Stepping
import TapeLab.Simulation.Basic

/-!
# Reachable configurations

What holds of every configuration that a machine reaches from its start, whatever the
switches of its steps: where the head stands, how long the stored tape is, what the
missing rule says, and how many steps are counted.

`Config.Sound` is the invariant of one step.  The length of the tape and the number of
steps depend on the run behind a configuration, so they are followed along
`Config.stage`.
-/

namespace TapeLab

namespace Config

variable {table : Table} {writeBlank : Bool} {config : Config} {switches : Nat → Bool}

/-- A configuration whose head is on the tape, and which names a missing rule exactly if
it ended for want of one: the pair under its head, for which there is no rule. -/
structure Sound (table : Table) (config : Config) : Prop where
  onTape : config.OnTape
  missing_iff : config.missing.isSome = true ↔ config.status = .errored
  missed : ∀ missing, config.missing = some missing →
    missing.state = config.state ∧ config.symbol? = some missing.symbol ∧
      table.lookup missing.state missing.symbol = none

/-- Steps keep configurations sound. -/
theorem Sound.step (sound : config.Sound table) :
    (config.step table writeBlank).Sound table := by
  have onTape : (config.step table writeBlank).OnTape := sound.onTape.step
  have outcome := step_outcome table writeBlank config
  generalize config.step table writeBlank = next at outcome onTape
  cases outcome with
  | rests _ => exact sound
  | sticks running missed =>
      refine ⟨onTape, by simp [stuck], ?_⟩
      intro missing isMissing
      obtain rfl : ⟨config.state, config.scanned table⟩ = missing := by
        simpa [stuck] using isMissing
      exact ⟨rfl, symbol?_of_onTape sound.onTape, missed⟩
  | applies rule _ _ =>
      exact ⟨onTape, by simp [status_apply_ne_errored], by simp⟩

/-- Every configuration of a run that begins soundly is sound. -/
theorem Sound.stage (sound : config.Sound table) (switches : Nat → Bool) (count : Nat) :
    (config.stage table switches count).Sound table := by
  induction count with
  | zero => exact sound
  | succ count inductionHypothesis => exact inductionHypothesis.step

/-- A step stores cells up to its head, and no cell beyond. -/
theorem size_step (onTape : config.OnTape) (table : Table) (writeBlank : Bool) :
    (config.step table writeBlank).tape.size =
      max config.tape.size ((config.step table writeBlank).head + 1) := by
  have bound : config.head < config.tape.size := onTape
  have outcome := step_outcome table writeBlank config
  generalize config.step table writeBlank = next at outcome
  cases outcome with
  | rests _ => omega
  | sticks _ _ =>
      simp only [stuck]
      omega
  | applies rule _ _ => exact size_apply onTape

/-- The farthest place at which the head stood in the first steps of a run. -/
def farthest (table : Table) (switches : Nat → Bool) (config : Config) (count : Nat) : Nat :=
  (Finset.range (count + 1)).sup fun index => (config.stage table switches index).head

/-- The farthest place so far is the head's, or the one before. -/
theorem farthest_succ (count : Nat) :
    config.farthest table switches (count + 1) =
      max (config.stage table switches (count + 1)).head (config.farthest table switches count) := by
  rw [farthest, Finset.range_add_one, Finset.sup_insert]
  rfl

/-- The stored tape is as long as it was, unless the head has stood farther out. -/
theorem size_stage (onTape : config.OnTape) (table : Table) (switches : Nat → Bool) (count : Nat) :
    (config.stage table switches count).tape.size =
      max config.tape.size (1 + config.farthest table switches count) := by
  induction count with
  | zero =>
      have bound : config.head < config.tape.size := onTape
      simp only [stage, farthest, Finset.range_one, Finset.sup_singleton, zero_add]
      omega
  | succ count inductionHypothesis =>
      have grown := size_step (onTape.stage table switches count) table (switches count)
      rw [farthest_succ, stage, grown, inductionHypothesis]
      omega

/-- A running machine that halts has counted the step in which it did. -/
theorem steps_of_step_halted (running : config.status = .running)
    (halts : (config.step table writeBlank).status = .halted) :
    (config.step table writeBlank).steps = config.steps + 1 := by
  have outcome := step_outcome table writeBlank config
  generalize config.step table writeBlank = next at outcome halts
  cases outcome with
  | rests _ => simp [running] at halts
  | sticks _ _ => simp [stuck] at halts
  | applies rule _ _ => exact steps_apply

/-- A running machine that finds no rule keeps its state, tape, head and count. -/
theorem step_errored (running : config.status = .running)
    (errs : (config.step table writeBlank).status = .errored) :
    config.step table writeBlank = config.stuck table := by
  have outcome := step_outcome table writeBlank config
  generalize config.step table writeBlank = next at outcome errs
  cases outcome with
  | rests _ => simp [running] at errs
  | sticks _ _ => rfl
  | applies rule _ _ => exact absurd errs status_apply_ne_errored

/-- A status that a run shows for the first time after a number of steps. -/
def FirstShows (table : Table) (switches : Nat → Bool) (config : Config) (status : Status)
    (count : Nat) : Prop :=
  (config.stage table switches count).status = status ∧
    ∀ earlier < count, (config.stage table switches earlier).status ≠ status

/-- The step before the first one at which a run shows an end finds it running. -/
theorem FirstShows.before {status : Status} {count : Nat} (ends : status ≠ .running)
    (running : config.status = .running) (first : FirstShows table switches config status count) :
    ∃ before, count = before + 1 ∧ (config.stage table switches before).status = .running := by
  cases count with
  | zero => exact absurd (running.symm.trans first.1).symm ends
  | succ before =>
      refine ⟨before, rfl, ?_⟩
      by_contra stopped
      have rests : config.stage table switches (before + 1) = config.stage table switches before :=
        stage_of_finished (finished_eq_true_iff.mpr stopped) (Nat.le_succ before)
      exact first.2 before (Nat.lt_succ_self before) (by rw [← rests]; exact first.1)

end Config

namespace Definition

/-- The configuration that a machine reaches from its start in a number of steps. -/
def reached (definition : Definition) (switches : Nat → Bool) (count : Nat) : Config :=
  definition.initial.stage (Table.ofDefinition definition) switches count

/-- A machine begins soundly. -/
theorem initial_sound (definition : Definition) (table : Table) : definition.initial.Sound table :=
  ⟨definition.initial_onTape, by simp [initial], by simp [initial]⟩

/-- What is said of the configuration that a machine reaches in a number of steps. -/
structure Reached (definition : Definition) (switches : Nat → Bool) (count : Nat)
    (config : Config) : Prop where
  head_lt : config.head < config.tape.size
  size_eq : config.tape.size = max definition.initial.tape.size
    (1 + (Finset.range (count + 1)).sup fun index => (definition.reached switches index).head)
  missing_iff : config.missing.isSome = true ↔ config.status = .errored
  missed : ∀ missing, config.missing = some missing →
    missing.state = config.state ∧ config.tape[config.head]? = some missing.symbol ∧
      (Table.ofDefinition definition).lookup missing.state missing.symbol = none
  steps_running : config.status = .running → config.steps = count
  /-- A machine that first halts at a step has counted it, and stays as it is. -/
  halted : ∀ first ≤ count,
    definition.initial.FirstShows (Table.ofDefinition definition) switches .halted first →
      config = definition.reached switches first ∧ config.steps = first
  /-- A machine that first misses a rule at a step has not counted it, is as it was before
  the step, and stays as it is. -/
  errored : ∀ first ≤ count,
    definition.initial.FirstShows (Table.ofDefinition definition) switches .errored first →
      config = definition.reached switches first ∧ config.steps + 1 = first ∧
        config.state = (definition.reached switches (first - 1)).state ∧
        config.tape = (definition.reached switches (first - 1)).tape ∧
        config.head = (definition.reached switches (first - 1)).head

/-- A machine with rules can be started, is refused no step, and is at every moment as
`Reached` says. -/
theorem reached_accounted (definition : Definition) (ruled : definition.isEmpty = false)
    (switches : Nat → Bool) (count : Nat) :
    (∀ writeBlank keepHistory, ∃ simulation,
      Simulation.start definition writeBlank keepHistory = .ok simulation ∧
        simulation.table = Table.ofDefinition definition ∧
        simulation.config = definition.reached switches 0) ∧
    (definition.reached switches count).step? (Table.ofDefinition definition) (switches count) =
      some (definition.reached switches (count + 1)) ∧
    Reached definition switches count (definition.reached switches count) := by
  have sound : (definition.reached switches count).Sound (Table.ofDefinition definition) :=
    (definition.initial_sound _).stage switches count
  refine ⟨?_, Config.step?_of_onTape sound.onTape, ?_⟩
  · intro writeBlank keepHistory
    exact ⟨Simulation.atStart definition writeBlank keepHistory, by simp [Simulation.start, ruled],
      rfl, rfl⟩
  · refine ⟨sound.onTape, Config.size_stage definition.initial_onTape _ _ count, sound.missing_iff,
      sound.missed, ?_, ?_, ?_⟩
    · intro runs
      rw [reached, Config.steps_of_stage_running runs]
      exact Nat.zero_add count
    · intro first le shows
      obtain ⟨before, rfl, ran⟩ := shows.before (by decide) rfl
      have done : (definition.reached switches (before + 1)).finished = true :=
        Config.finished_eq_true_iff.mpr (by rw [reached, shows.1]; decide)
      have same := Config.stage_of_finished done le
      refine ⟨same, ?_⟩
      rw [reached, same]
      have counted := Config.steps_of_step_halted ran shows.1
      rw [Config.steps_of_stage_running ran] at counted
      exact counted.trans (congrArg (· + 1) (Nat.zero_add before))
    · intro first le shows
      obtain ⟨before, rfl, ran⟩ := shows.before (by decide) rfl
      have done : (definition.reached switches (before + 1)).finished = true :=
        Config.finished_eq_true_iff.mpr (by rw [reached, shows.1]; decide)
      have same := Config.stage_of_finished done le
      have stuck : definition.reached switches (before + 1) =
          (definition.reached switches before).stuck (Table.ofDefinition definition) :=
        Config.step_errored ran shows.1
      refine ⟨same, ?_⟩
      rw [reached, same, ← reached, stuck]
      refine ⟨?_, rfl, rfl, rfl⟩
      have counted := Config.steps_of_stage_running ran
      simp only [Config.stuck, reached, counted]
      exact congrArg (· + 1) (Nat.zero_add before)

/-- A machine with one rule, which misses a rule at its second step. -/
theorem reached_accounted_missing :
    let definition : Definition :=
      { dialect := .classic, rules := [⟨"q0", "0", "q1", "1", .right, false, none⟩], tape := ["0"],
        start := "q0" }
    definition.isEmpty = false ∧
      Reached definition (fun _ => true) 3 (definition.reached (fun _ => true) 3) :=
  ⟨rfl, (reached_accounted _ rfl (fun _ => true) 3).2.2⟩

end Definition

end TapeLab
