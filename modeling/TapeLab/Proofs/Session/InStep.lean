import TapeLab.Proofs.Session.Loading
import TapeLab.Proofs.Session.Loops
import TapeLab.Proofs.Settings.Checking

/-!
# Machine and settings in step

A machine obeys the settings of a session if its switches are those of the settings
(`Obeys`).  It does so when it is put on the bench and when settings are applied to it, and goes
on doing so whatever an item of the menu does (`perform_inStep`).
-/

namespace TapeLab.Session

open Console Fallible

/-! ### Obeying settings -/

/-- A simulation has its switches as the settings say.  Where history is not kept there is none. -/
structure Obeys (settings : Settings) (simulation : Simulation) : Prop where
  writeBlank : simulation.writeBlank = settings.writeBlank
  keepHistory : simulation.keepHistory = settings.keepHistory
  history : simulation.keepHistory = false → simulation.history = #[]

section Obeys

variable {settings : Settings} {simulation : Simulation}

theorem obeys_atStart (settings : Settings) (definition : Definition) :
    Obeys settings (.atStart definition settings.writeBlank settings.keepHistory) where
  writeBlank := rfl
  keepHistory := rfl
  history off := by
    have off : settings.keepHistory = false := off
    simp [Simulation.atStart, Simulation.freshHistory, off]

theorem Obeys.step (obeys : Obeys settings simulation) : Obeys settings simulation.step where
  writeBlank := obeys.writeBlank
  keepHistory := obeys.keepHistory
  history off := by
    have off : simulation.keepHistory = false := off
    simp [Simulation.step, off, obeys.history off]

theorem Obeys.reset (obeys : Obeys settings simulation) : Obeys settings simulation.reset where
  writeBlank := obeys.writeBlank
  keepHistory := obeys.keepHistory
  history off := by
    have off : simulation.keepHistory = false := off
    simp [Simulation.reset, Simulation.freshHistory, off]

/-- Settings that are applied are obeyed. -/
theorem obeys_applySettings (settings : Settings) (simulation : Simulation) :
    Obeys settings (applySettings settings simulation) where
  writeBlank := rfl
  keepHistory := rfl
  history off := by
    have off : settings.keepHistory = false := off
    simp [applySettings, Simulation.setKeepHistory, off]

/-- To apply settings that are obeyed already changes nothing, the history included. -/
theorem Obeys.applySettings_eq (obeys : Obeys settings simulation) :
    applySettings settings simulation = simulation := by
  obtain ⟨writeBlank, keepHistory, history⟩ := obeys
  rw [applySettings, Simulation.setWriteBlank, Simulation.setKeepHistory, ← writeBlank,
    ← keepHistory]
  cases keeps : simulation.keepHistory with
  | true => simp [← keeps]
  | false => simp [← keeps, ← history keeps]

end Obeys

/-- What was loaded, if anything was, obeys the settings. -/
def LoadedObeys (settings : Settings) (loaded : Option Loaded) : Prop :=
  ∀ machine, loaded = some machine → Obeys settings machine.simulation

/-- The machine on the bench, if there is one, obeys the settings of the session. -/
def Bench.InStep (bench : Bench) : Prop :=
  LoadedObeys bench.settings bench.loaded

variable {bench : Bench} {settings : Settings}

theorem Bench.InStep.withSimulation {loaded : Loaded} {simulation : Simulation}
    (obeys : Obeys bench.settings simulation) : (bench.withSimulation simulation loaded).InStep := by
  rintro _ ⟨⟩
  exact obeys

theorem Bench.inStep_withSettings (settings : Settings) (bench : Bench) :
    (bench.withSettings settings).InStep := by
  intro loaded found
  obtain ⟨before, -, rfl⟩ := Option.map_eq_some_iff.mp found
  exact obeys_applySettings settings before.simulation

/-- A bench in step is the same under its own settings. -/
theorem Bench.InStep.withSettings_eq (inStep : bench.InStep) :
    bench.withSettings bench.settings = bench := by
  obtain ⟨settings, loaded⟩ := bench
  cases loaded with
  | none => rfl
  | some loaded =>
      have same := (inStep loaded rfl).applySettings_eq
      simp only [Bench.withSettings, Option.map_some, same]

/-! ### Fresh benches -/

/-- A bench with which the menu is shown first: it is empty, or has a machine at its start that
was put there under the settings. -/
inductive Bench.Fresh : Bench → Prop where
  | empty (settings : Settings) : Bench.Fresh { settings }
  | loaded (settings : Settings) (definition : Definition) (name : String) :
      Bench.Fresh {
        settings
        loaded := some ⟨.atStart definition settings.writeBlank settings.keepHistory, name⟩ }

/-- A fresh bench is in step. -/
theorem Bench.Fresh.inStep (fresh : bench.Fresh) : bench.InStep := by
  cases fresh with
  | empty settings => exact nofun
  | loaded settings definition name =>
      rintro _ ⟨⟩
      exact obeys_atStart settings definition

section Terminal

variable [Terminal]

/-- A machine that was put on the bench makes a fresh bench. -/
theorem putOnBench_fresh (settings : Settings) (definition : Definition) (name : String) :
    Yields (fun simulation => Bench.Fresh { settings, loaded := loadedAs name simulation })
      (putOnBench settings definition) := by
  intro state simulation put
  rw [run_putOnBench] at put
  cases said : verdict (report definition) with
  | error breakdown =>
      rw [said] at put
      cases put
  | ok shown =>
      rw [said] at put
      cases put
      unfold started
      split
      · exact .empty settings
      · exact .loaded settings definition name

/-! ### Every item keeps the bench in step -/

theorem loadFile_obeys (settings : Settings) :
    Yields (LoadedObeys settings) (loadFile settings) := by
  rw [loadFile_eq]
  refine .after fun path => .after fun found => ?_
  cases found with
  | error fault => exact .after fun _ => .pure nofun
  | ok definition =>
      exact (putOnBench_fresh settings definition path).bind fun _ fresh => .pure fresh.inStep

theorem loadExample_obeys (settings : Settings) :
    Yields (LoadedObeys settings) (loadExample settings) :=
  .after fun name => .after fun definition =>
    (putOnBench_fresh settings definition name).bind fun _ fresh => .pure fresh.inStep

theorem takeLoaded_inStep {loaded : Option Loaded} (inStep : bench.InStep)
    (obeys : LoadedObeys bench.settings loaded) : Yields Bench.InStep (takeLoaded loaded bench) := by
  cases loaded with
  | none => exact .pure inStep
  | some machine => exact .after fun _ => .pure obeys

/-- A run goes on obeying, wherever it is interrupted. -/
theorem runMachine_obeys {simulation : Simulation} (obeys : Obeys settings simulation)
    (delay : Option Json.Value) (journal : Journal) (moment : Moment) (name : String) :
    Yields (fun ended => Obeys settings ended.1)
      (runMachine settings delay journal moment name simulation) := by
  intro state ended succeeds
  rw [runMachine_result] at succeeds
  have steps : ∀ other, Obeys settings other → Obeys settings other.step :=
    fun _ kept => kept.step
  have ran : Obeys settings (ticking settings delay simulation state).simulation :=
    Ticking.ticks_keep steps obeys settings.maxSteps
  split at succeeds
  · cases succeeds
  · obtain ⟨-, -, logging⟩ := bind_eq_ok_iff.mp succeeds
    obtain ⟨-, -, returns⟩ := bind_eq_ok_iff.mp logging
    cases returns
    exact ran

/-- Whatever is done with the machine on the bench keeps the bench in step. -/
theorem doWithMachine_inStep {loaded : Loaded} (inStep : bench.InStep)
    (found : bench.loaded = some loaded) (surroundings : Surroundings) (item : MenuItem) :
    Yields Bench.InStep (doWithMachine surroundings item loaded bench) := by
  have obeys := inStep loaded found
  cases item with
  | showTable => exact .after fun _ => .pure inStep
  | step =>
      simp only [doWithMachine, stepLoaded]
      split
      · exact .after fun _ => .pure inStep
      · exact .after fun _ => .pure (.withSimulation obeys.step)
  | run =>
      exact (runMachine_obeys obeys _ _ _ _).bind fun _ obeysEnded =>
        .pure (.withSimulation obeysEnded)
  | reset => exact .after fun _ => .pure (.withSimulation obeys.reset)
  | showHistory => exact .after fun _ => .pure inStep
  | loadFile => exact .pure inStep
  | loadExample => exact .pure inStep
  | editSettings => exact .pure inStep
  | leave => exact .pure inStep

/-- Whatever an item of the menu does keeps the bench in step. -/
theorem perform_inStep (inStep : bench.InStep) (surroundings : Surroundings) (item : MenuItem) :
    Yields Bench.InStep (perform surroundings item bench) := by
  unfold perform
  split
  · cases found : bench.loaded with
    | none => exact .after fun _ => .pure inStep
    | some loaded => exact doWithMachine_inStep inStep found surroundings item
  · split
    · exact (loadFile_obeys bench.settings).bind fun _ => takeLoaded_inStep inStep
    · exact (loadExample_obeys bench.settings).bind fun _ => takeLoaded_inStep inStep
    · exact .after fun edited => .pure (bench.inStep_withSettings edited)
    · exact .pure inStep

end Terminal

end TapeLab.Session
