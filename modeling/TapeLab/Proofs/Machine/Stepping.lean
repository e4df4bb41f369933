import TapeLab.Machine.Step

/-!
# What one step does

`Config.step_outcome` says once what a step can do: a finished machine rests, a machine
without a rule is stuck, and every other machine applies the rule that it found.  What a
rule does to each part of a configuration is said by one lemma a part, so later proofs
open neither `step` nor `apply`.

`Config.stage` is a run in which every step has its own switch for writing the blank.
-/

namespace TapeLab.Config

variable {table : Table} {writeBlank : Bool} {config : Config} {rule : Rule}

/-- What a step can do to a configuration. -/
inductive Outcome (table : Table) (writeBlank : Bool) (config : Config) : Config → Prop where
  /-- A finished machine stays as it is. -/
  | rests (done : config.finished = true) : Outcome table writeBlank config config
  /-- A running machine for which there is no rule ends with the pair that it missed. -/
  | sticks (running : config.status = .running)
      (missed : table.lookup config.state (config.scanned table) = none) :
      Outcome table writeBlank config (config.stuck table)
  /-- A running machine applies the rule that it finds. -/
  | applies (rule : Rule) (running : config.status = .running)
      (found : table.lookup config.state (config.scanned table) = some rule) :
      Outcome table writeBlank config (config.apply table writeBlank rule)

/-- A machine is finished exactly when it does not run. -/
theorem finished_eq_true_iff : config.finished = true ↔ config.status ≠ .running := by
  simp [finished]

/-- A machine goes on exactly when it runs. -/
theorem finished_eq_false_iff : config.finished = false ↔ config.status = .running := by
  simp [finished]

/-- Every step rests, sticks or applies a rule. -/
theorem step_outcome (table : Table) (writeBlank : Bool) (config : Config) :
    Outcome table writeBlank config (config.step table writeBlank) := by
  by_cases running : config.status = .running
  · cases found : table.lookup config.state (config.scanned table) with
    | none => simpa [step, running, found] using Outcome.sticks running found
    | some rule => simpa [step, running, found] using Outcome.applies rule running found
  · have done : config.finished = true := finished_eq_true_iff.mpr running
    rw [step_of_finished done]
    exact .rests done

@[simp]
theorem size_written : (config.written table writeBlank rule).size = config.tape.size := by
  unfold written
  split <;> simp

@[simp]
theorem steps_apply : (config.apply table writeBlank rule).steps = config.steps + 1 := by
  cases move : rule.move <;> simp [apply, move]

@[simp]
theorem missing_apply : (config.apply table writeBlank rule).missing = none := by
  cases move : rule.move <;> simp [apply, move]

/-- A rule ends the run exactly if its head stays. -/
theorem status_apply :
    (config.apply table writeBlank rule).status =
      if rule.move = .stay then .halted else .running := by
  cases move : rule.move <;> simp [apply, move]

/-- No rule leads to a machine that missed a rule. -/
theorem status_apply_ne_errored : (config.apply table writeBlank rule).status ≠ .errored := by
  rw [status_apply]
  split <;> simp

/-- The stored tape reaches as far as before, or to the head if that is farther. -/
theorem size_apply (onTape : config.OnTape) :
    (config.apply table writeBlank rule).tape.size =
      max config.tape.size ((config.apply table writeBlank rule).head + 1) := by
  simp only [OnTape] at onTape
  cases move : rule.move with
  | left =>
      simp only [apply, move, size_written]
      omega
  | right =>
      simp only [apply, move, size_written]
      split
      · rw [size_written]
        omega
      · rw [Array.size_push, size_written]
        omega
  | stay =>
      simp only [apply, move, size_written]
      omega

/-- A machine on its tape reads the stored cell under its head. -/
theorem symbol?_of_onTape (onTape : config.OnTape) :
    config.symbol? = some (config.scanned table) := by
  have bound : config.head < config.tape.size := onTape
  simp [symbol?, scanned, bound]

/-- A machine on its tape is not refused its step. -/
theorem step?_of_onTape (onTape : config.OnTape) :
    config.step? table writeBlank = some (config.step table writeBlank) := by
  simp [step?, offTape, onTape]

/-- A configuration after a number of steps, where the switch of every step says whether
it may write the blank. -/
def stage (table : Table) (switches : Nat → Bool) (config : Config) : Nat → Config
  | 0 => config
  | count + 1 => (stage table switches config count).step table (switches count)

/-- A run of steps that begins on the tape stays on it. -/
theorem OnTape.stage (onTape : config.OnTape) (table : Table) (switches : Nat → Bool)
    (count : Nat) : (config.stage table switches count).OnTape := by
  induction count with
  | zero => exact onTape
  | succ count inductionHypothesis => exact inductionHypothesis.step

/-- From its end on, a machine does not change. -/
theorem stage_of_finished {switches : Nat → Bool} {count later : Nat}
    (done : (config.stage table switches count).finished = true) (after : count ≤ later) :
    config.stage table switches later = config.stage table switches count := by
  obtain ⟨extra, rfl⟩ := Nat.exists_eq_add_of_le after
  clear after
  induction extra with
  | zero => rfl
  | succ extra inductionHypothesis =>
      have stillDone : (config.stage table switches (count + extra)).finished = true := by
        rwa [inductionHypothesis]
      rw [← Nat.add_assoc, Config.stage, step_of_finished stillDone, inductionHypothesis]

/-- A machine that runs after a step ran before it and has counted the step. -/
theorem steps_of_step_running (runs : (config.step table writeBlank).status = .running) :
    config.status = .running ∧ (config.step table writeBlank).steps = config.steps + 1 := by
  have outcome := step_outcome table writeBlank config
  generalize config.step table writeBlank = next at outcome runs
  cases outcome with
  | rests done => exact absurd runs (finished_eq_true_iff.mp done)
  | sticks _ _ => simp [stuck] at runs
  | applies rule running _ => exact ⟨running, steps_apply⟩

/-- A machine that runs has counted every step. -/
theorem steps_of_stage_running {switches : Nat → Bool} {count : Nat}
    (runs : (config.stage table switches count).status = .running) :
    (config.stage table switches count).steps = config.steps + count := by
  induction count with
  | zero => rfl
  | succ count inductionHypothesis =>
      obtain ⟨ranBefore, counted⟩ := steps_of_step_running runs
      rw [stage, counted, inductionHypothesis ranBefore]
      rfl

end TapeLab.Config
