import TapeLab.Proofs.Machine.Runs
import TapeLab.Proofs.Session.Saying
import TapeLab.Session.Running

/-!
# The loops that run a machine

A machine is run by four loops: the capped run and the trace of a configuration, the run
of a simulation with its observer, and the ticks of a session with their pauses.  Each
of the others is brought back to `Config.run` and `Config.trace`, so they agree at every
cap, and at every pause at which the user may interrupt.  Only the loop of a session can fail:
when the terminal refuses its pause or what is said after it, or the journal its record.
-/

namespace TapeLab

namespace Simulation

variable {View : Type} {observe : View → Config → View} {simulation : Simulation}

/-- An observer sees the trace of a run, in order, and the run ends where it would end
unobserved. -/
theorem runObserved_eq (cap : Nat) (seen : View) :
    (simulation.runObserved observe cap seen).1.config =
        simulation.config.run simulation.table simulation.writeBlank cap ∧
      (simulation.runObserved observe cap seen).2 =
        (simulation.config.trace simulation.table simulation.writeBlank cap).foldl observe seen := by
  induction cap generalizing simulation seen with
  | zero => exact ⟨rfl, rfl⟩
  | succ cap inductionHypothesis =>
      cases done : simulation.config.finished with
      | true =>
          simp [runObserved, finished, done, Config.run_of_finished done,
            Config.trace_of_finished done]
      | false =>
          rw [Config.run_succ done, Config.trace_succ done, List.foldl_cons]
          simp only [runObserved, finished, done]
          exact inductionHypothesis _

/-- What an observer makes of a run has no effect on the run. -/
theorem runObserved_fst {Other : Type} {watch : Other → Config → Other} (cap : Nat) (seen : View)
    (noted : Other) :
    (simulation.runObserved observe cap seen).1 = (simulation.runObserved watch cap noted).1 := by
  induction cap generalizing simulation seen noted with
  | zero => rfl
  | succ cap inductionHypothesis =>
      simp only [runObserved]
      split
      · rfl
      · exact inductionHypothesis _ _

/-- Counting the configurations of a list gives its length. -/
theorem foldl_count (configs : List Config) (start : Nat) :
    configs.foldl (fun taken _ => taken + 1) start = start + configs.length := by
  induction configs generalizing start with
  | nil => rfl
  | cons config rest inductionHypothesis =>
      rw [List.foldl_cons, inductionHypothesis, List.length_cons]
      omega

/-- Collecting the configurations of a list gives the list. -/
theorem foldl_collect (configs start : List Config) :
    configs.foldl (fun seen config => seen ++ [config]) start = start ++ configs := by
  induction configs generalizing start with
  | nil => simp
  | cons config rest inductionHypothesis => simp [inductionHypothesis]

/-- What holds of the run of a simulation under a cap. -/
structure RunAgrees (simulation : Simulation) (cap : Nat) : Prop where
  config : (simulation.run cap).1.config =
    simulation.config.run simulation.table simulation.writeBlank cap
  /-- An observer that keeps what it is shown has the trace, in order. -/
  observed : simulation.runObserved (fun seen config => seen ++ [config]) cap [] =
    ((simulation.run cap).1, simulation.config.trace simulation.table simulation.writeBlank cap)
  taken : (simulation.run cap).2 =
    (simulation.config.trace simulation.table simulation.writeBlank cap).length
  /-- The step that finds no rule is taken, but not counted by the machine. -/
  counted : simulation.config.steps + (simulation.run cap).2 =
    (simulation.run cap).1.config.steps +
      if simulation.config.Fails (simulation.run cap).1.config then 1 else 0

/-- Every run of a simulation agrees with the runs of its configuration. -/
theorem runAgrees (simulation : Simulation) (cap : Nat) : RunAgrees simulation cap := by
  have counting : (simulation.run cap).2 =
      (simulation.config.trace simulation.table simulation.writeBlank cap).length := by
    rw [run, (runObserved_eq cap 0).2, foldl_count, Nat.zero_add]
  refine ⟨(runObserved_eq cap 0).1, ?_, counting, ?_⟩
  · apply Prod.ext
    · exact runObserved_fst cap [] 0
    · rw [(runObserved_eq cap []).2, foldl_collect, List.nil_append]
  · rw [counting, run, (runObserved_eq cap 0).1]
    exact Config.steps_add_length_trace cap

end Simulation

namespace Session

open Console

/-! ### Interruptions -/

/-- How many ticks a run can have: its cap, or those up to the pause at which the user
interrupts. -/
def Ticking.limit (delay : Option Json.Value) (patience : Option Nat) (cap : Nat) : Nat :=
  match delay, patience with
  | some _, some (pause + 1) => min cap (pause + 1)
  | _, _ => cap

/-- No run has more ticks than its cap. -/
theorem Ticking.limit_le (delay : Option Json.Value) (patience : Option Nat) (cap : Nat) :
    Ticking.limit delay patience cap ≤ cap := by
  unfold limit
  split
  · exact Nat.min_le_left _ _
  · exact Nat.le_refl cap

/-- The user interrupts a run at one of the pauses that it makes, one after each step. -/
def InterruptedAt (delay : Option Json.Value) (state : State) (steps pause : Nat) : Prop :=
  delay.isSome = true ∧ state.patience = some pause ∧ 0 < pause ∧ pause ≤ steps

/-- A run that the user interrupts has the ticks up to the pause. -/
theorem limit_of_interrupted {delay : Option Json.Value} {state : State} {steps pause cap : Nat}
    (interrupted : InterruptedAt delay state steps pause) (le : steps ≤ cap) :
    Ticking.limit delay state.patience cap = pause := by
  obtain ⟨delayed, patience, positive, within⟩ := interrupted
  obtain ⟨seconds, rfl⟩ := Option.isSome_iff_exists.mp delayed
  obtain ⟨before, rfl⟩ := Nat.exists_eq_succ_of_ne_zero (Nat.pos_iff_ne_zero.mp positive)
  rw [patience]
  exact Nat.min_eq_right (Nat.le_trans within le)

/-- A run that the user does not interrupt has all its ticks. -/
theorem le_limit_of_undisturbed {delay : Option Json.Value} {state : State} {steps cap : Nat}
    (never : ∀ pause, ¬InterruptedAt delay state steps pause) (le : steps ≤ cap) :
    steps ≤ Ticking.limit delay state.patience cap := by
  unfold Ticking.limit
  split
  · next seconds pause patience =>
      have beyond : ¬pause + 1 ≤ steps :=
        fun within => never (pause + 1) ⟨rfl, patience, Nat.succ_pos pause, within⟩
      omega
  · exact le

/-- What holds of the run of a simulation in a session, which ends in a simulation after
some steps. -/
structure RunAgrees (simulation : Simulation) (cap : Nat) (delay : Option Json.Value)
    (state : State) (final : Simulation) (taken : Nat) : Prop where
  table : final.table = simulation.table
  writeBlank : final.writeBlank = simulation.writeBlank
  undisturbed :
    (∀ pause, ¬InterruptedAt delay state
      (simulation.config.trace simulation.table simulation.writeBlank cap).length pause) →
    final.config = (simulation.run cap).1.config ∧ taken = (simulation.run cap).2
  interrupted : ∀ pause,
    InterruptedAt delay state
      (simulation.config.trace simulation.table simulation.writeBlank cap).length pause →
    final.config = simulation.config.run simulation.table simulation.writeBlank pause ∧
      taken = pause
  /-- Whatever broke it off, running again continues the run. -/
  continues : ∀ more,
    final.config.run final.table final.writeBlank more =
      simulation.config.run simulation.table simulation.writeBlank (taken + more)

/-- At the end of a run nothing is said but that it was interrupted, where the machine is, and that
it was cut off or that the machine halted. -/
theorem forall_mem_closing {settings : Settings} {interrupted : Bool} {taken : Nat}
    {simulation : Simulation} {property : Notice → Prop} (stops : property .interrupted)
    (pictures : property (.picture settings simulation)) (cuts : property (.cutOff taken))
    (halts : simulation.halted = true → property (.halted simulation)) :
    ∀ notice ∈ closing settings interrupted taken simulation, property notice := by
  have ends : ∀ notice, ending settings taken simulation = some notice → property notice := by
    intro notice found
    unfold ending at found
    split at found
    · cases found
      exact cuts
    · split at found
      · next halted =>
        cases found
        exact halts halted
      · cases found
  intro notice member
  rcases List.mem_append.mp member with paused | later
  · split at paused
    · rw [List.mem_singleton.mp paused]
      exact stops
    · cases paused
  · rcases List.mem_cons.mp later with rfl | last
    · exact pictures
    · exact ends notice (Option.mem_toList.mp last)

/-! ### Ticks -/

section Ticks

variable [Terminal] {settings : Settings} {delay : Option Json.Value}

namespace Ticking

/-- Why the terminal refuses the pauses of a delay, if it does. -/
def refusal? (delay : Option Json.Value) : Option Terminal.Failure :=
  delay.bind Terminal.pauseRefusal?

/-- A run that goes on: its machine may finish, but nothing has broken it off. -/
structure GoesOn (run : Ticking) : Prop where
  uninterrupted : run.interrupted = false
  unfailed : run.failure = none

/-- A tick is a step, whatever the terminal does. -/
@[simp]
theorem tick_simulation (run : Ticking) :
    (run.tick settings delay).simulation = run.simulation.step := by
  cases delay with
  | none => rfl
  | some seconds =>
      simp only [tick]
      split <;> rfl

@[simp]
theorem tick_taken (run : Ticking) : (run.tick settings delay).taken = run.taken + 1 := by
  cases delay with
  | none => rfl
  | some seconds =>
      simp only [tick]
      split <;> rfl

/-- A tick fails if its pause is refused. -/
theorem tick_failure {run : Ticking} (unfailed : run.failure = none) :
    (run.tick settings delay).failure = refusal? delay := by
  cases delay with
  | none => exact unfailed
  | some seconds =>
      simp only [tick, refusal?, Option.bind_some]
      split <;> simp [*]

/-- A run that was broken off takes no further tick. -/
theorem ticks_of_broken {run : Ticking}
    (broken : (run.interrupted || run.failure.isSome) = true) (cap : Nat) :
    run.ticks settings delay cap = run := by
  cases cap with
  | zero => rfl
  | succ cap => rw [ticks, Bool.or_assoc, broken, Bool.or_true, if_pos rfl]

/-- Nor does one whose machine is finished. -/
theorem ticks_of_finished {run : Ticking} (finished : run.simulation.finished = true) (cap : Nat) :
    run.ticks settings delay cap = run := by
  cases cap <;> simp [ticks, finished]

/-- A run that goes on takes a tick. -/
theorem ticks_succ {run : Ticking} (unfinished : run.simulation.finished = false)
    (goesOn : run.GoesOn) (cap : Nat) :
    run.ticks settings delay (cap + 1) = (run.tick settings delay).ticks settings delay cap := by
  rw [ticks, unfinished, goesOn.uninterrupted, goesOn.unfailed]
  rfl

/-- A run ends after one tick if its pauses are refused. -/
theorem ticks_of_refused {run : Ticking} (unfinished : run.simulation.finished = false)
    (goesOn : run.GoesOn) {failure : Terminal.Failure} (refused : refusal? delay = some failure)
    {cap : Nat} (positive : 0 < cap) :
    run.ticks settings delay cap = run.tick settings delay := by
  obtain ⟨less, rfl⟩ := Nat.exists_eq_succ_of_ne_zero (Nat.pos_iff_ne_zero.mp positive)
  have failed : (run.tick settings delay).failure = some failure :=
    (tick_failure goesOn.unfailed).trans refused
  exact (ticks_succ unfinished goesOn less).trans (ticks_of_broken (by simp [failed]) less)

/-- What a tick makes of the user's patience, and whether the user interrupts it. -/
theorem tick_patience {run : Ticking} {seconds : Json.Value}
    (pauses : refusal? (some seconds) = none) :
    (run.tick settings (some seconds)).patience = run.patience.map (fun left => left - 1) ∧
      (run.tick settings (some seconds)).interrupted = (run.patience == some 1) := by
  have shown : Terminal.pauseRefusal? seconds = none := pauses
  simp [tick, shown]

/-- After a tick that was not interrupted, the limit is one less. -/
theorem limit_of_tick_continues {run : Ticking} (pauses : refusal? delay = none)
    (goesOn : (run.tick settings delay).interrupted = false) (cap : Nat) :
    limit delay run.patience (cap + 1) =
      limit delay (run.tick settings delay).patience cap + 1 := by
  cases delay with
  | none => rfl
  | some seconds =>
      obtain ⟨left, interrupted⟩ := @tick_patience _ settings run seconds pauses
      rw [interrupted] at goesOn
      rw [left]
      cases patience : run.patience with
      | none => simp [limit]
      | some left =>
          match left with
          | 0 => simp [limit]
          | 1 => simp [patience] at goesOn
          | left + 2 =>
              simp only [limit, Option.map_some, Nat.add_one_sub_one]
              omega

/-- A tick at which the user interrupts is the last one. -/
theorem limit_of_tick_interrupted {run : Ticking} (pauses : refusal? delay = none)
    (goesOn : run.interrupted = false) (broken : (run.tick settings delay).interrupted = true)
    (cap : Nat) : limit delay run.patience (cap + 1) = 1 := by
  cases delay with
  | none => simp [tick, goesOn] at broken
  | some seconds =>
      rw [(@tick_patience _ settings run seconds pauses).2, beq_iff_eq] at broken
      simp [limit, broken]

/-- A machine under a table and a switch, which ticks do not change. -/
structure Drives (run : Ticking) (table : Table) (writeBlank : Bool) (config : Config)
    (taken : Nat) : Prop where
  table : run.simulation.table = table
  writeBlank : run.simulation.writeBlank = writeBlank
  config : run.simulation.config = config
  taken : run.taken = taken

/-- A tick is a step. -/
theorem Drives.tick {run : Ticking} {table : Table} {writeBlank : Bool} {config : Config}
    {taken : Nat} (drives : run.Drives table writeBlank config taken) :
    (run.tick settings delay).Drives table writeBlank (config.step table writeBlank)
      (taken + 1) := by
  obtain ⟨rfl, rfl, rfl, rfl⟩ := drives
  constructor <;> simp <;> rfl

/-- Ticks run the machine, and count the steps of its trace, up to their limit. -/
theorem Drives.ticks {run : Ticking} {table : Table} {writeBlank : Bool} {config : Config}
    {taken : Nat} (drives : run.Drives table writeBlank config taken) (goesOn : run.GoesOn)
    (settings : Settings) (pauses : refusal? delay = none) (cap : Nat) :
    (run.ticks settings delay cap).failure = none ∧
    (run.ticks settings delay cap).Drives table writeBlank
      (config.run table writeBlank (limit delay run.patience cap))
      (taken + (config.trace table writeBlank (limit delay run.patience cap)).length) := by
  induction cap generalizing run config taken with
  | zero =>
      have none : limit delay run.patience 0 = 0 := by
        unfold limit
        split <;> simp
      rw [none]
      exact ⟨goesOn.unfailed, drives⟩
  | succ cap inductionHypothesis =>
      cases done : config.finished with
      | true =>
          have finished : run.simulation.finished = true := by
            rw [Simulation.finished, drives.config, done]
          rw [Config.run_of_finished done, Config.trace_of_finished done,
            ticks_of_finished finished]
          exact ⟨goesOn.unfailed, drives⟩
      | false =>
          have unfinished : run.simulation.finished = false := by
            rw [Simulation.finished, drives.config, done]
          have ticked : (run.tick settings delay).Drives table writeBlank
              (config.step table writeBlank) (taken + 1) := drives.tick
          have unfailed : (run.tick settings delay).failure = none :=
            (tick_failure goesOn.unfailed).trans pauses
          rw [ticks_succ unfinished goesOn]
          cases broken : (run.tick settings delay).interrupted with
          | true =>
              rw [ticks_of_broken (by simp [broken]),
                limit_of_tick_interrupted pauses goesOn.uninterrupted broken,
                Config.run_succ done, Config.trace_succ done]
              exact ⟨unfailed, ticked⟩
          | false =>
              rw [limit_of_tick_continues pauses broken, Config.run_succ done,
                Config.trace_succ done, List.length_cons, Nat.add_comm _ 1, ← Nat.add_assoc]
              exact inductionHypothesis ticked ⟨broken, unfailed⟩

/-- What every step keeps is kept by any number of ticks. -/
theorem ticks_keep {kept : Simulation → Prop}
    (steps : ∀ simulation, kept simulation → kept simulation.step) {run : Ticking}
    (begun : kept run.simulation) (cap : Nat) : kept (run.ticks settings delay cap).simulation := by
  induction cap generalizing run with
  | zero => exact begun
  | succ cap inductionHypothesis =>
      unfold ticks
      split
      · exact begun
      · refine inductionHypothesis ?_
        rw [tick_simulation]
        exact steps _ begun

end Ticking

/-- The ticks of a run that begins in a state. -/
def ticking (settings : Settings) (delay : Option Json.Value) (simulation : Simulation)
    (state : State) : Ticking :=
  Ticking.ticks settings delay settings.maxSteps { simulation, patience := state.patience }

/-- The terminal refuses the first pause of a run. -/
def RefusesPause (settings : Settings) (delay : Option Json.Value) (simulation : Simulation)
    (failure : Terminal.Failure) : Prop :=
  Ticking.refusal? delay = some failure ∧ simulation.finished = false ∧ 0 < settings.maxSteps

/-- The ticks of a run go through if their pause is not refused. -/
theorem run_runTicks (settings : Settings) (delay : Option Json.Value) (simulation : Simulation)
    (state : State) :
    (runTicks settings delay simulation).run state =
      (match (ticking settings delay simulation state).failure with
        | some failure => .error (.terminal failure)
        | none => .ok (ticking settings delay simulation state),
        state.afterTicks (ticking settings delay simulation state)) := by
  unfold runTicks
  rw [Fallible.run_bind_ok (Fallible.run_get state),
    Fallible.run_bind_ok (Fallible.run_set _ state), ← ticking]
  cases (ticking settings delay simulation state).failure <;> rfl

/-- The end of a run in a session: that of its ticks, unless the terminal refuses a pause or what
is said then, or the journal fails. -/
theorem runMachine_result (settings : Settings) (delay : Option Json.Value) (journal : Journal)
    (moment : Moment) (name : String) (simulation : Simulation) (state : State) :
    let run := ticking settings delay simulation state
    ((runMachine settings delay journal moment name simulation).run state).1 =
      match run.failure with
      | some failure => .error (.terminal failure)
      | none => do
        verdict (closing settings run.interrupted run.taken run.simulation)
        ((journal.log (RunRecord.ofRun name run.simulation.definition run.simulation.config
          moment).value).run state.workspace).1.mapError .fault
        return (run.simulation, run.taken) := by
  intro run
  rw [runMachine, Fallible.run_bind, run_runTicks]
  cases failed : run.failure with
  | some failure => rfl
  | none =>
      simp only [Fallible.run_bind, run_forM_say]
      cases verdict (closing settings run.interrupted run.taken run.simulation) with
      | error breakdown => rfl
      | ok shown =>
          simp only [run_onWorkspace, State.telling_workspace, State.afterTicks_workspace]
          cases (journal.log (RunRecord.ofRun name run.simulation.definition
            run.simulation.config moment).value).run state.workspace with
          | mk result workspace => cases result <;> rfl

/-- The ticks of a run whose pauses are refused are its first step. -/
theorem ticking_of_refused {simulation : Simulation} {failure : Terminal.Failure}
    (refuses : RefusesPause settings delay simulation failure) (state : State) :
    (ticking settings delay simulation state).simulation = simulation.step ∧
      (ticking settings delay simulation state).taken = 1 ∧
      (ticking settings delay simulation state).failure = some failure := by
  obtain ⟨refused, unfinished, positive⟩ := refuses
  have start : Ticking.GoesOn { simulation, patience := state.patience } := ⟨rfl, rfl⟩
  have once : ticking settings delay simulation state =
      Ticking.tick settings delay { simulation, patience := state.patience } :=
    Ticking.ticks_of_refused unfinished start refused positive
  rw [once, Ticking.tick_simulation, Ticking.tick_taken, Ticking.tick_failure rfl, refused]
  exact ⟨rfl, rfl, rfl⟩

/-- The ticks of a run whose pauses are not refused run its machine up to their limit. -/
theorem ticking_of_unrefused {simulation : Simulation}
    (unrefused : ∀ failure, ¬RefusesPause settings delay simulation failure) (state : State) :
    (ticking settings delay simulation state).failure = none ∧
    (ticking settings delay simulation state).Drives simulation.table simulation.writeBlank
      (simulation.config.run simulation.table simulation.writeBlank
        (Ticking.limit delay state.patience settings.maxSteps))
      (simulation.config.trace simulation.table simulation.writeBlank
        (Ticking.limit delay state.patience settings.maxSteps)).length := by
  have start : Ticking.Drives { simulation, patience := state.patience } simulation.table
      simulation.writeBlank simulation.config 0 := ⟨rfl, rfl, rfl, rfl⟩
  cases pauses : Ticking.refusal? delay with
  | none =>
      have driven := start.ticks ⟨rfl, rfl⟩ settings pauses settings.maxSteps
      rwa [Nat.zero_add] at driven
  | some failure =>
      -- No pause is made, since no step is taken.
      have idle : simulation.config.finished = true ∨ settings.maxSteps = 0 := by
        cases done : simulation.config.finished with
        | true => exact .inl rfl
        | false =>
            exact .inr (Nat.eq_zero_of_not_pos fun positive =>
              unrefused failure ⟨pauses, done, positive⟩)
      have still : ticking settings delay simulation state =
          { simulation, patience := state.patience } := by
        rcases idle with finished | none
        · exact @Ticking.ticks_of_finished _ _ _ { simulation, patience := state.patience } finished _
        · rw [ticking, none]
          rfl
      rw [still]
      refine ⟨rfl, ?_⟩
      rcases idle with finished | none
      · rw [Config.run_of_finished finished, Config.trace_of_finished finished]
        exact start
      · have nothing := Ticking.limit_le delay state.patience settings.maxSteps
        rw [none, Nat.le_zero] at nothing
        rw [none, nothing]
        exact start

/-- The ticks of a session agree with the runs of the simulation, if no pause is refused. -/
theorem runAgrees_ticking {simulation : Simulation}
    (unrefused : ∀ failure, ¬RefusesPause settings delay simulation failure) (state : State) :
    RunAgrees simulation settings.maxSteps delay state
      (ticking settings delay simulation state).simulation
      (ticking settings delay simulation state).taken := by
  obtain ⟨-, table, writeBlank, config, taken⟩ := ticking_of_unrefused unrefused state
  have driven := simulation.runAgrees settings.maxSteps
  refine ⟨table, writeBlank, ?_, ?_, ?_⟩
  · intro never
    have enough := le_limit_of_undisturbed never (Config.length_trace_le settings.maxSteps)
    have sameTrace := Config.trace_of_length_le (Ticking.limit_le _ _ _) enough
    rw [driven.config, driven.taken, config, taken, sameTrace, Config.run_eq_getLast_trace,
      sameTrace, ← Config.run_eq_getLast_trace]
    exact ⟨rfl, rfl⟩
  · intro pause interrupted
    rw [config, taken, limit_of_interrupted interrupted (Config.length_trace_le _)]
    exact ⟨rfl, Config.length_trace_of_le interrupted.2.2.2⟩
  · intro more
    rw [config, taken, table, writeBlank, ← Config.run_add, Config.run_length_trace]

/-! ### All loops -/

/-- What holds of the run of a machine in a session on a terminal that may fail. -/
structure SessionAgrees (settings : Settings) (delay : Option Json.Value) (journal : Journal)
    (moment : Moment) (name : String) (simulation : Simulation) (state : State) : Prop where
  /-- A pause that is refused breaks the session off after the first step. -/
  refused : ∀ failure, RefusesPause settings delay simulation failure →
    (ticking settings delay simulation state).simulation = simulation.step ∧
    (ticking settings delay simulation state).taken = 1 ∧
    ((runMachine settings delay journal moment name simulation).run state).1 =
      .error (.terminal failure)
  /-- Otherwise the loop agrees with the run of the simulation.  The simulation and the number of
  steps are returned, if the terminal shows what is then said and the journal takes the record. -/
  unrefused : (∀ failure, ¬RefusesPause settings delay simulation failure) →
    let run := ticking settings delay simulation state
    RunAgrees simulation settings.maxSteps delay state run.simulation run.taken ∧
    ((runMachine settings delay journal moment name simulation).run state).1 = (do
      verdict (closing settings run.interrupted run.taken run.simulation)
      ((journal.log (RunRecord.ofRun name run.simulation.definition run.simulation.config
        moment).value).run state.workspace).1.mapError .fault
      return (run.simulation, run.taken))

/-- Every run in a session agrees so. -/
theorem sessionAgrees (settings : Settings) (delay : Option Json.Value) (journal : Journal)
    (moment : Moment) (name : String) (simulation : Simulation) (state : State) :
    SessionAgrees settings delay journal moment name simulation state := by
  have result := runMachine_result settings delay journal moment name simulation state
  constructor
  · intro failure refuses
    obtain ⟨stepped, once, failed⟩ := ticking_of_refused refuses state
    simp only [failed] at result
    exact ⟨stepped, once, result⟩
  · intro unrefused
    obtain ⟨unfailed, -⟩ := ticking_of_unrefused unrefused state
    simp only [unfailed] at result
    exact ⟨runAgrees_ticking unrefused state, result⟩

/-- No number of steps is returned if the file is not there to log the record in. -/
theorem runMachine_unlogged {journal : Journal} {state : State}
    (untouched : ((Workspace.touch journal.mainFile).run state.workspace).1.toOption = none)
    (settings : Settings) (delay : Option Json.Value) (moment : Moment) (name : String)
    (simulation : Simulation) :
    ((runMachine settings delay journal moment name simulation).run state).1.toOption = none := by
  have unlogged : ∀ entry, ((journal.log entry).run state.workspace).1 ≠ .ok () := by
    intro entry logged
    obtain ⟨_, _, touched, -⟩ := Fallible.exists_of_bind_ok logged
    rw [touched] at untouched
    cases untouched
  rw [runMachine_result]
  split
  · rfl
  · cases verdict (closing settings _ _ _) with
    | error breakdown => rfl
    | ok shown =>
        cases ended : ((journal.log (RunRecord.ofRun name
            (ticking settings delay simulation state).simulation.definition
            (ticking settings delay simulation state).simulation.config moment).value).run
          state.workspace).1 with
        | error fault => rfl
        | ok done => exact absurd ended (unlogged _)

/-- All the loops that run a machine agree: those of a configuration, the run of a
simulation with its observer, and the run of a session with its pauses and its journal, as long as
the terminal and the journal do not fail. -/
theorem loops_agree (simulation : Simulation) (onTape : simulation.config.OnTape) :
    Config.LoopsAgree simulation.table simulation.writeBlank simulation.config ∧
    (∀ cap, simulation.RunAgrees cap) ∧
    ∀ settings delay journal moment name state,
      SessionAgrees settings delay journal moment name simulation state :=
  ⟨Config.loopsAgree_of_onTape onTape, simulation.runAgrees,
    fun settings delay journal moment name state =>
      sessionAgrees settings delay journal moment name simulation state⟩

end Ticks

/-- A machine that errs in its second step. -/
def missing : Simulation :=
  .atStart
    { dialect := .classic, rules := [⟨"q0", "0", "q1", "1", .right, false, none⟩],
      tape := ["0"], start := "q0" } false false

/-- The loops of that machine, in a session on a strict terminal. -/
theorem loops_agree_missing :
    missing.config.OnTape ∧
      Config.LoopsAgree missing.table missing.writeBlank missing.config ∧
      missing.RunAgrees 2 ∧
      @SessionAgrees Terminal.strict .defaults none ⟨"logs/", "turingtape_", "2024-01-02"⟩
        { year := 2024, month := 1, day := 2 } "missing" missing { workspace := {}, answers := [] } := by
  have onTape : missing.config.OnTape := by decide
  have agree := @loops_agree Terminal.strict missing onTape
  exact ⟨onTape, agree.1, agree.2.1 2, agree.2.2 _ _ _ _ _ _⟩

/-- A directory stands where the records of that day are kept. -/
def blockedWorkspace : Workspace where
  entries := [(["work", "logs"], .directory),
    (["work", "logs", "turingtape_2024-01-02.jsonl"], .directory)]

/-- A run in a session returns no number of steps if its record cannot be logged, although the
terminal refuses nothing, and none if it is to pause without end. -/
theorem runMachine_unreturned :
    ((@runMachine Terminal.recorder .defaults none ⟨"logs/", "turingtape_", "2024-01-02"⟩
        { year := 2024, month := 1, day := 2 } "missing" missing).run
      { workspace := blockedWorkspace, answers := [] }).1.toOption = none ∧
    ((@runMachine Terminal.strict .defaults (some (.float (.infinity false)))
        ⟨"logs/", "turingtape_", "2024-01-02"⟩ { year := 2024, month := 1, day := 2 } "missing"
        missing).run { workspace := {}, answers := [] }).1 =
      .error (.terminal (.uncountable (.float (.infinity false)))) := by
  refine ⟨@runMachine_unlogged Terminal.recorder _ _ (by decide +kernel) _ _ _ _ _, ?_⟩
  have refuses : @RefusesPause Terminal.strict .defaults (some (.float (.infinity false))) missing
      (.uncountable (.float (.infinity false))) := ⟨rfl, rfl, by decide +kernel⟩
  have agrees := @sessionAgrees Terminal.strict .defaults (some (.float (.infinity false)))
    ⟨"logs/", "turingtape_", "2024-01-02"⟩ { year := 2024, month := 1, day := 2 } "missing" missing
    { workspace := {}, answers := [] }
  exact (@SessionAgrees.refused Terminal.strict _ _ _ _ _ _ _ agrees _ refuses).2.2

end Session

end TapeLab
