import TapeLab.Proofs.Session.Loops

/-!
# Runs without a delay

A run under no delay waits for nobody, and nothing is shown between its steps.  It is its closing
notices and its entry in the journal (`run_runMachine`).
-/

namespace TapeLab.Session

open Console Fallible

variable [Terminal] {settings : Settings}

namespace Ticking

/-- Without a delay a tick changes nothing but the simulation and the number of steps. -/
structure Unchanged (before after : Ticking) : Prop where
  patience : after.patience = before.patience
  interrupted : after.interrupted = before.interrupted
  failure : after.failure = before.failure
  notices : after.notices = before.notices

theorem ticks_none_unchanged (run : Ticking) (cap : Nat) :
    Unchanged run (run.ticks settings none cap) := by
  induction cap generalizing run with
  | zero => exact ⟨rfl, rfl, rfl, rfl⟩
  | succ cap inductionHypothesis =>
      unfold ticks
      split
      · exact ⟨rfl, rfl, rfl, rfl⟩
      · obtain ⟨patience, interrupted, failure, notices⟩ :=
          inductionHypothesis (run.tick settings none)
        exact ⟨patience, interrupted, failure, notices⟩

end Ticking

/-- A run without a delay ends where the run of its configuration does. -/
theorem ticking_none (settings : Settings) (simulation : Simulation) (state : State) :
    (ticking settings none simulation state).simulation.definition = simulation.definition ∧
      (ticking settings none simulation state).simulation.config =
        simulation.config.run simulation.table simulation.writeBlank settings.maxSteps := by
  have steps : ∀ other : Simulation, other.definition = simulation.definition →
      other.step.definition = simulation.definition := fun _ same => same
  have unrefused : ∀ failure, ¬RefusesPause settings none simulation failure := by
    rintro failure ⟨⟨⟩, -⟩
  exact ⟨Ticking.ticks_keep steps rfl settings.maxSteps,
    (ticking_of_unrefused unrefused state).2.config⟩

/-- A run without a delay is its closing notices and its entry in the journal. -/
theorem run_runMachine (settings : Settings) (journal : Journal) (moment : Moment) (name : String)
    (simulation : Simulation) (state : State) :
    let run := ticking settings none simulation state
    (runMachine settings none journal moment name simulation).run state =
      ExceptT.run (do
        (closing settings false run.taken run.simulation).forM say
        onWorkspace (journal.log (RunRecord.ofRun name run.simulation.definition
          run.simulation.config moment).value)
        return (run.simulation, run.taken) : Session (Simulation × Nat)) state := by
  intro run
  obtain ⟨patience, interrupted, failure, notices⟩ :
      Ticking.Unchanged { simulation, patience := state.patience } run :=
    Ticking.ticks_none_unchanged _ settings.maxSteps
  have ticked : (runTicks settings none simulation).run state = (.ok run, state) := by
    have stays : state.afterTicks run = state := by
      simp [State.afterTicks, patience, interrupted, notices]
    rw [run_runTicks, ← show run = ticking settings none simulation state from rfl, failure, stays]
  rw [runMachine, run_bind_ok ticked, interrupted]

end TapeLab.Session
