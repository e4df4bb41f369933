import TapeLab.Proofs.Simulation.Performing

/-!
# Steps of finished machines

A step of a finished machine leaves its configuration alone, but it is recorded like any
other: the history grows by a row with every step that is asked of a finished machine.  A
run takes no such step.  So a history that was kept from the start has a row for the start,
one for every step that the machine counts, one for the step that found no rule, and one for
every step that was asked of the machine when it had finished
(`Simulation.historyRows_of_idle`).
-/

namespace TapeLab

namespace Config

variable {table : Table} {writeBlank : Bool} {config : Config}

/-- The steps that a machine has tried: those it counts, and the one that found no rule. -/
def tried (config : Config) : Nat :=
  config.steps + if config.status = .errored then 1 else 0

/-- A machine that goes on tries a step. -/
theorem tried_step (goesOn : config.finished = false) :
    (config.step table writeBlank).tried = config.tried + 1 := by
  have running : config.status = .running := finished_eq_false_iff.mp goesOn
  have outcome := step_outcome table writeBlank config
  generalize config.step table writeBlank = next at outcome
  cases outcome with
  | rests done => simp [goesOn] at done
  | sticks _ _ => simp [tried, stuck, running]
  | applies rule _ _ => simp [tried, status_apply_ne_errored, running]

/-- A run tries as many steps as its trace has. -/
theorem tried_run (cap : Nat) :
    (config.run table writeBlank cap).tried =
      config.tried + (config.trace table writeBlank cap).length := by
  induction cap generalizing config with
  | zero => rfl
  | succ cap inductionHypothesis =>
      cases done : config.finished with
      | true => simp [run_of_finished done, trace_of_finished done]
      | false =>
          rw [run_succ done, trace_succ done, inductionHypothesis, tried_step done,
            List.length_cons]
          omega

end Config

namespace Simulation

variable {simulation start : Simulation} {machine : Definition} {actions : List Action}
  {action : Action} {writeBlank keepHistory : Bool}

/-- The step of a finished machine changes nothing but the history. -/
theorem step_of_finished (done : simulation.finished = true) :
    simulation.step =
      { simulation with
        history :=
          if simulation.keepHistory then simulation.history.push simulation.config
          else simulation.history } := by
  unfold step
  rw [Config.step_of_finished done]

/-- An action that moves a machine on. -/
def Action.Moves (action : Action) : Prop :=
  action = .step ∨ ∃ cap, action = .run cap

/-- An action that is idle: a step that is asked of a finished machine. -/
def Idle (simulation : Simulation) (action : Action) : Prop :=
  action = .step ∧ simulation.finished = true

instance (simulation : Simulation) (action : Action) : Decidable (simulation.Idle action) :=
  inferInstanceAs (Decidable (_ ∧ _))

/-- How many of some actions are idle. -/
def idleCount (simulation : Simulation) : List Action → Nat
  | [] => 0
  | action :: later =>
    (if simulation.Idle action then 1 else 0) + (simulation.perform action).idleCount later

/-- A history that is kept grows by the steps that the machine tries and by the idle ones. -/
theorem size_history_perform (keeps : simulation.keepHistory = true) (moves : action.Moves) :
    (simulation.perform action).keepHistory = true ∧
      (simulation.perform action).history.size + simulation.config.tried =
        simulation.history.size + (simulation.perform action).config.tried +
          if simulation.Idle action then 1 else 0 := by
  rcases moves with rfl | ⟨cap, rfl⟩
  · refine ⟨keeps, ?_⟩
    cases done : simulation.finished with
    | true =>
        simp only [perform, step_of_finished done, keeps, Idle, done, and_self, if_true,
          Array.size_push]
        omega
    | false =>
        have tried : (simulation.config.step simulation.table simulation.writeBlank).tried =
            simulation.config.tried + 1 := Config.tried_step done
        simp only [perform, step, keeps, Idle, done, if_true, Array.size_push]
        simp [tried]
        omega
  · rw [perform, run_fst]
    refine ⟨keeps, ?_⟩
    simp [keeps, Idle, Config.tried_run]
    omega

/-- So does it over any actions that move the machine on. -/
theorem size_history_performAll (keeps : simulation.keepHistory = true)
    (moves : ∀ action ∈ actions, action.Moves) :
    (simulation.performAll actions).history.size + simulation.config.tried =
      simulation.history.size + (simulation.performAll actions).config.tried +
        simulation.idleCount actions := by
  induction actions generalizing simulation with
  | nil => rfl
  | cons action later inductionHypothesis =>
      obtain ⟨stillKeeps, grown⟩ := size_history_perform keeps (moves action List.mem_cons_self)
      have rest := inductionHypothesis stillKeeps fun other member =>
        moves other (List.mem_cons_of_mem action member)
      simp only [performAll, List.foldl_cons, idleCount] at rest ⊢
      omega

/-- A step that is asked of a finished machine leaves its configuration alone, and adds a row
to its history if one is kept.  So a history that was kept from the start has, after steps
and runs, the rows of the steps that the machine counts and of the one that found no rule, a
row for its start, and one for every idle step. -/
theorem historyRows_of_idle
    (started : Simulation.start machine writeBlank keepHistory = .ok start)
    (actions : List Action) :
    let current := start.performAll actions
    (current.finished = true → current.step.config = current.config ∧
      current.step.historyRows = current.historyRows ++
        if current.keepHistory then [HistoryRow.ofConfig current.table current.config] else []) ∧
    (keepHistory = true → (∀ action ∈ actions, action.Moves) →
      current.historyRows.length =
        current.config.steps + (if current.errored then 2 else 1) + start.idleCount actions) := by
  intro current
  obtain ⟨-, rfl⟩ := start_eq_ok_iff.mp started
  refine ⟨fun done => ?_, fun keeps moves => ?_⟩
  · rw [step_of_finished done]
    refine ⟨rfl, ?_⟩
    cases current.keepHistory <;> simp [historyRows]
  · subst keeps
    -- At the start there is one row, and no step was tried.
    have grown : current.history.size + 0 = 1 + current.config.tried +
        (atStart machine writeBlank true).idleCount actions := size_history_performAll rfl moves
    have rows : current.historyRows.length = current.history.size := by simp [historyRows]
    simp only [Config.tried] at grown
    simp only [rows, errored, beq_iff_eq]
    split at grown <;> rename_i ended <;> simp only [ended, if_true, if_false] <;> omega

/-- A machine that halts with its first step. -/
def halter : Definition :=
  { dialect := .classic, rules := [⟨"q0", "0", "q0", "0", .stay, false, none⟩], tape := ["0"],
    start := "q0" }

/-- It has halted after a step. -/
theorem config_halter_step :
    ((atStart halter false true).performAll [.step]).config =
      { state := "q0", tape := #["0"], steps := 1, status := .halted } := by
  simp [performAll, perform, step, atStart, halter, Table.ofDefinition, Definition.initial,
    Config.step, Table.lookup_ofRules, Table.scan, Table.firstFor, Rule.key, Config.scanned,
    Config.apply, Config.written, Config.writes, defaultBlank]

/-- The history of that machine after two idle steps, with a run between them. -/
theorem historyRows_of_idle_halter :
    let start := atStart halter false true
    let actions : List Action := [.step, .step, .run 3, .step]
    Simulation.start halter false true = .ok start ∧ (∀ action ∈ actions, action.Moves) ∧
      (start.performAll actions).historyRows.length =
        (start.performAll actions).config.steps +
          (if (start.performAll actions).errored then 2 else 1) + start.idleCount actions ∧
      (start.performAll [.step]).finished = true ∧
      (start.performAll [.step]).step.config = (start.performAll [.step]).config := by
  intro start actions
  have started : Simulation.start halter false true = .ok start := rfl
  have moves : ∀ action ∈ actions, action.Moves := by simp [actions, Action.Moves]
  have halted : (start.performAll [.step]).finished = true := by
    rw [finished, config_halter_step]
    rfl
  exact ⟨started, moves, (historyRows_of_idle started actions).2 rfl moves, halted,
    ((historyRows_of_idle started [.step]).1 halted).1⟩

/-- A second step adds a row to the history of that machine, which has counted one step and
found its rule. -/
theorem halter_idle_step_recorded :
    let start := atStart halter false true
    Simulation.start halter false true = .ok start ∧
      (start.performAll [.step]).finished = true ∧
      (start.performAll [.step]).step.historyRows ≠ (start.performAll [.step]).historyRows ∧
      (start.performAll [.step, .step]).errored = false ∧
      (start.performAll [.step, .step]).historyRows.length ≠
        (start.performAll [.step, .step]).config.steps + 1 := by
  intro start
  have halted : (start.performAll [.step]).finished = true := by
    rw [finished, config_halter_step]
    rfl
  have second : start.performAll [.step, .step] = (start.performAll [.step]).step := rfl
  rw [second, step_of_finished halted]
  refine ⟨rfl, halted, ?_, ?_, ?_⟩
  · intro same
    have lengths := congrArg List.length same
    have keeps : (start.performAll [.step]).keepHistory = true := rfl
    simp [historyRows, keeps] at lengths
  · rw [errored, config_halter_step]
    rfl
  · rw [config_halter_step]
    decide

end Simulation

end TapeLab
