import TapeLab.Proofs.Machine.Stepping

/-!
# Runs under one switch

A run that stops at a cap or at the end of the machine is the stage of that number: the
steps that a finished machine would still be given do nothing (`Config.run_eq_stage`).
The trace of a run holds the stages that it steps through, and no more.
-/

namespace TapeLab.Config

variable {table : Table} {writeBlank : Bool} {config : Config}

/-- A finished machine is run by no step. -/
theorem run_of_finished (done : config.finished = true) (cap : Nat) :
    config.run table writeBlank cap = config := by
  cases cap <;> simp [run, done]

/-- A finished machine leaves no trace. -/
theorem trace_of_finished (done : config.finished = true) (cap : Nat) :
    config.trace table writeBlank cap = [] := by
  cases cap <;> simp [trace, done]

/-- A machine that goes on is run by a step and the run after it. -/
theorem run_succ (goesOn : config.finished = false) (cap : Nat) :
    config.run table writeBlank (cap + 1) =
      (config.step table writeBlank).run table writeBlank cap := by
  simp [run, goesOn]

/-- A machine that goes on leaves the trace of a step and of the run after it. -/
theorem trace_succ (goesOn : config.finished = false) (cap : Nat) :
    config.trace table writeBlank (cap + 1) =
      config.step table writeBlank ::
        (config.step table writeBlank).trace table writeBlank cap := by
  simp [trace, goesOn]

/-- Stages may be counted from the first step on. -/
theorem stage_step (count : Nat) :
    (config.step table writeBlank).stage table (fun _ => writeBlank) count =
      config.stage table (fun _ => writeBlank) (count + 1) := by
  induction count with
  | zero => rfl
  | succ count inductionHypothesis =>
      rw [stage, inductionHypothesis]
      rfl

/-- A capped run ends at the stage of its cap. -/
theorem run_eq_stage (cap : Nat) :
    config.run table writeBlank cap = config.stage table (fun _ => writeBlank) cap := by
  induction cap generalizing config with
  | zero => rfl
  | succ cap inductionHypothesis =>
      cases done : config.finished with
      | true =>
          have atStart : (config.stage table (fun _ => writeBlank) 0).finished = true := done
          rw [run_of_finished done, stage_of_finished atStart (Nat.zero_le (cap + 1))]
          rfl
      | false => rw [run_succ done, inductionHypothesis, stage_step]

/-- A run may be cut anywhere and taken up again. -/
theorem run_add (first more : Nat) :
    (config.run table writeBlank first).run table writeBlank more =
      config.run table writeBlank (first + more) := by
  induction first generalizing config with
  | zero => rw [Nat.zero_add]; rfl
  | succ first inductionHypothesis =>
      cases done : config.finished with
      | true => simp only [run_of_finished done]
      | false =>
          rw [run_succ done, inductionHypothesis, Nat.add_right_comm first 1 more, run_succ done]

/-- A run that reached the end of the machine is every longer run. -/
theorem run_of_run_finished {cap longer : Nat}
    (done : (config.run table writeBlank cap).finished = true) (le : cap ≤ longer) :
    config.run table writeBlank longer = config.run table writeBlank cap := by
  obtain ⟨extra, rfl⟩ := Nat.exists_eq_add_of_le le
  rw [← run_add, run_of_finished done]

/-- The trace of a run begins every longer trace. -/
theorem take_trace (cap extra : Nat) :
    (config.trace table writeBlank (cap + extra)).take cap =
      config.trace table writeBlank cap := by
  induction cap generalizing config with
  | zero => simp [trace]
  | succ cap inductionHypothesis =>
      cases done : config.finished with
      | true => simp [trace_of_finished done]
      | false =>
          rw [Nat.add_right_comm cap 1 extra, trace_succ done, trace_succ done,
            List.take_succ_cons, inductionHypothesis]

/-- A trace holds no more configurations than the run had steps. -/
theorem length_trace_le (cap : Nat) : (config.trace table writeBlank cap).length ≤ cap := by
  induction cap generalizing config with
  | zero => simp [trace]
  | succ cap inductionHypothesis =>
      cases done : config.finished with
      | true => simp [trace_of_finished done]
      | false =>
          rw [trace_succ done, List.length_cons]
          exact Nat.succ_le_succ inductionHypothesis

/-- A run needs no larger cap than the length of its trace. -/
theorem run_length_trace (cap : Nat) :
    config.run table writeBlank (config.trace table writeBlank cap).length =
      config.run table writeBlank cap := by
  induction cap generalizing config with
  | zero => rfl
  | succ cap inductionHypothesis =>
      cases done : config.finished with
      | true => simp only [run_of_finished done]
      | false =>
          rw [trace_succ done, List.length_cons, run_succ done, run_succ done, inductionHypothesis]

/-- A run ends at the last configuration of its trace, and where it began if there is
none. -/
theorem run_eq_getLast_trace (cap : Nat) :
    config.run table writeBlank cap =
      (config.trace table writeBlank cap).getLast?.getD config := by
  induction cap generalizing config with
  | zero => rfl
  | succ cap inductionHypothesis =>
      cases done : config.finished with
      | true => rw [run_of_finished done, trace_of_finished done]; rfl
      | false =>
          rw [run_succ done, trace_succ done, inductionHypothesis, List.getLast?_cons]
          rfl

/-- A cap that the trace of a run does not exceed leaves the same trace. -/
theorem trace_of_length_le {shorter cap : Nat} (le : shorter ≤ cap)
    (enough : (config.trace table writeBlank cap).length ≤ shorter) :
    config.trace table writeBlank shorter = config.trace table writeBlank cap := by
  obtain ⟨extra, rfl⟩ := Nat.exists_eq_add_of_le le
  rw [← take_trace shorter extra, List.take_of_length_le enough]

/-- So does every cap up to that length leave a trace of its own length. -/
theorem length_trace_of_le {shorter cap : Nat}
    (le : shorter ≤ (config.trace table writeBlank cap).length) :
    (config.trace table writeBlank shorter).length = shorter := by
  obtain ⟨extra, rfl⟩ := Nat.exists_eq_add_of_le (Nat.le_trans le (length_trace_le cap))
  rw [← take_trace shorter extra, List.length_take, Nat.min_eq_left le]

/-- A machine that has found no rule in a run. -/
def Fails (before after : Config) : Prop :=
  before.status ≠ .errored ∧ after.status = .errored

instance (before after : Config) : Decidable (Fails before after) :=
  inferInstanceAs (Decidable (_ ∧ _))

/-- The steps of a run are those that the machine counts and the one in which it found no
rule. -/
theorem steps_add_length_trace (cap : Nat) :
    config.steps + (config.trace table writeBlank cap).length =
      (config.run table writeBlank cap).steps +
        if Fails config (config.run table writeBlank cap) then 1 else 0 := by
  induction cap generalizing config with
  | zero => simp [trace, run, Fails]
  | succ cap inductionHypothesis =>
      cases done : config.finished with
      | true => simp [run_of_finished done, trace_of_finished done, Fails]
      | false =>
          have running : config.status = .running := finished_eq_false_iff.mp done
          rw [trace_succ done, run_succ done, List.length_cons]
          have counted := @inductionHypothesis (config.step table writeBlank)
          have outcome := step_outcome table writeBlank config
          generalize config.step table writeBlank = next at outcome counted ⊢
          cases outcome with
          | rests rested => simp [done] at rested
          | sticks _ _ =>
              have ended : (config.stuck table).finished = true := by simp [stuck, finished]
              rw [run_of_finished ended, trace_of_finished ended]
              simp [Fails, running, stuck]
          | applies rule _ _ =>
              simp only [Fails, steps_apply, ne_eq, status_apply_ne_errored, not_false_eq_true,
                true_and, running, reduceCtorEq] at counted ⊢
              omega

/-- What holds of the runs and traces that begin at a configuration, at every cap. -/
structure LoopsAgree (table : Table) (writeBlank : Bool) (config : Config) : Prop where
  run_taken : ∀ cap, config.run? table writeBlank cap = some (config.run table writeBlank cap)
  trace_taken : ∀ cap, config.trace? table writeBlank cap = some (config.trace table writeBlank cap)
  /-- The traces are the beginnings of one sequence. -/
  take_trace : ∀ cap extra,
    (config.trace table writeBlank (cap + extra)).take cap = config.trace table writeBlank cap
  run_eq_last : ∀ cap,
    config.run table writeBlank cap = (config.trace table writeBlank cap).getLast?.getD config
  run_add : ∀ first more,
    (config.run table writeBlank first).run table writeBlank more =
      config.run table writeBlank (first + more)
  /-- From the end of the machine on, every cap and no cap at all give the same run. -/
  ends : ∀ cap, (config.run table writeBlank cap).finished = true → ∀ longer, cap ≤ longer →
    config.run table writeBlank longer = config.run table writeBlank cap ∧
      config.runToEnd? table writeBlank longer = some (config.run table writeBlank cap)
  counts : ∀ cap, (config.run table writeBlank cap).status = .running →
    (config.run table writeBlank cap).steps = config.steps + cap

/-- The loops of a machine on its tape agree. -/
theorem loopsAgree_of_onTape (onTape : config.OnTape) : LoopsAgree table writeBlank config where
  run_taken cap := by simp [run?, offTape, onTape]
  trace_taken cap := by simp [trace?, offTape, onTape]
  take_trace := Config.take_trace
  run_eq_last := run_eq_getLast_trace
  run_add := Config.run_add
  ends cap done longer le := by
    have same := run_of_run_finished done le
    exact ⟨same, by simp [runToEnd?, same, done]⟩
  counts cap runs := by
    rw [run_eq_stage] at runs ⊢
    exact steps_of_stage_running runs

end TapeLab.Config
