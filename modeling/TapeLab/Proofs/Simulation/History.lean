import TapeLab.Proofs.Simulation.Performing

/-!
# Recorded histories

While a simulation records, its history is a trace: it begins with the configuration with
which the recording began, ends with the current one, and every configuration in it is the
step of the one before, under the switch that was in force at that step.  A recording begins
with a start, with a reset, or where history is turned on; turning it on again does nothing.

`Simulation.KeepsHistory.concat` says what one action keeps of this, and
`Simulation.keepsHistory_of_requests` what any requests keep.
-/

namespace TapeLab

variable {table : Table} {first last next : Config} {switches : List Bool}
  {configs : List Config} {switch : Bool}

/-- Configurations from a first to a last one, of which each is the step of the one before,
every step under its own switch. -/
structure Config.IsTrace (table : Table) (first : Config) (switches : List Bool) (last : Config)
    (configs : List Config) : Prop where
  length_eq : configs.length = switches.length + 1
  head?_eq : configs.head? = some first
  getLast?_eq : configs.getLast? = some last
  next : ∀ {index switch}, switches[index]? = some switch →
    ∃ before after, configs[index]? = some before ∧ configs[index + 1]? = some after ∧
      before.step? table switch = some after

namespace Config.IsTrace

/-- A trace of no step. -/
theorem begun (table : Table) (first : Config) : IsTrace table first [] first [first] where
  length_eq := rfl
  head?_eq := rfl
  getLast?_eq := rfl
  next taken := by simp at taken

/-- A trace goes on with the step of its last configuration. -/
theorem step (trace : IsTrace table first switches last configs)
    (taken : last.step? table switch = some next) :
    IsTrace table first (switches ++ [switch]) next (configs ++ [next]) where
  length_eq := by simp [trace.length_eq]
  head?_eq := by rw [List.head?_append, trace.head?_eq, Option.some_or]
  getLast?_eq := List.getLast?_concat
  next {index found} isFound := by
    rcases Nat.lt_trichotomy index switches.length with earlier | rfl | beyond
    · rw [List.getElem?_append_left earlier] at isFound
      obtain ⟨before, after, atIndex, atNext, stepped⟩ := trace.next isFound
      have inside : index + 1 < configs.length := by rw [trace.length_eq]; omega
      exact ⟨before, after, by rw [List.getElem?_append_left (Nat.lt_of_succ_lt inside), atIndex],
        by rw [List.getElem?_append_left inside, atNext], stepped⟩
    · obtain rfl : switch = found := by simpa using isFound
      have atLast : configs[switches.length]? = some last := by
        rw [← trace.getLast?_eq, List.getLast?_eq_getElem?, trace.length_eq, Nat.add_sub_cancel]
      have inside : switches.length < configs.length := by rw [trace.length_eq]; omega
      exact ⟨last, next, by rw [List.getElem?_append_left inside, atLast],
        by simp [← trace.length_eq], taken⟩
    · have none : (switches ++ [switch])[index]? = none :=
        List.getElem?_eq_none (by rw [List.length_append, List.length_singleton]; omega)
      simp [none] at isFound

/-- A trace goes on with the trace of a run from its last configuration. -/
theorem run (trace : IsTrace table first switches last configs) (onTape : last.OnTape)
    (writeBlank : Bool) (cap : Nat) :
    IsTrace table first
      (switches ++ List.replicate (last.trace table writeBlank cap).length writeBlank)
      (last.run table writeBlank cap) (configs ++ last.trace table writeBlank cap) := by
  induction cap generalizing last switches configs with
  | zero => simpa [Config.run, Config.trace] using trace
  | succ cap inductionHypothesis =>
      cases done : last.finished with
      | true => simpa [run_of_finished done, trace_of_finished done] using trace
      | false =>
          rw [run_succ done, trace_succ done, List.length_cons, List.replicate_succ,
            List.append_cons switches, List.append_cons configs]
          exact inductionHypothesis (trace.step (step?_of_onTape onTape)) onTape.step

end Config.IsTrace

namespace Simulation

variable {simulation start current fresh : Simulation} {machine : Definition}
  {actions earlier later : List Action} {action : Action} {writeBlank keepHistory : Bool}

/-- The switches that are in force at the steps of an action. -/
def switchesOf (simulation : Simulation) : Action → List Bool
  | .step => [simulation.writeBlank]
  | .run cap => List.replicate (simulation.run cap).2 simulation.writeBlank
  | _ => []

/-- The switches that are in force at the steps of actions, one after another. -/
def switchesOfAll (simulation : Simulation) : List Action → List Bool
  | [] => []
  | action :: later =>
    simulation.switchesOf action ++ (simulation.perform action).switchesOfAll later

/-- The steps of one action more. -/
theorem switchesOfAll_concat (actions : List Action) (action : Action) :
    simulation.switchesOfAll (actions ++ [action]) =
      simulation.switchesOfAll actions ++ (simulation.performAll actions).switchesOf action := by
  induction actions generalizing simulation with
  | nil => simp [switchesOfAll, performAll]
  | cons earlier later inductionHypothesis =>
      rw [List.cons_append, switchesOfAll, inductionHypothesis, switchesOfAll, List.append_assoc]
      rfl

/-- The last of some actions begins a recording, with a configuration. -/
inductive BeginsRecording (machine : Definition) (start : Simulation) : List Action → Config → Prop
  | start (keeps : start.keepHistory = true) : BeginsRecording machine start [] machine.initial
  | reset {earlier : List Action} (keeps : (start.performAll earlier).keepHistory = true) :
      BeginsRecording machine start (earlier ++ [.reset]) machine.initial
  | turnedOn {earlier : List Action} (off : (start.performAll earlier).keepHistory = false) :
      BeginsRecording machine start (earlier ++ [.setKeepHistory true])
        (start.performAll earlier).config

/-- An action with which a recording goes on. -/
def Action.GoesOn (action : Action) : Prop :=
  action ≠ .reset ∧ action ≠ .setKeepHistory false

/-- The history of a simulation after some actions: the trace since the last of them that
began a recording, and nothing if history is off. -/
structure KeepsHistory (machine : Definition) (start : Simulation) (actions : List Action)
    (current : Simulation) : Prop where
  off : current.keepHistory = false → current.history = #[]
  on : current.keepHistory = true → ∃ earlier later first,
    actions = earlier ++ later ∧ BeginsRecording machine start earlier first ∧
      (∀ action ∈ later, action.GoesOn) ∧
      Config.IsTrace (Table.ofDefinition machine) first
        ((start.performAll earlier).switchesOfAll later) current.config current.history.toList

/-- An action with which a recording goes on continues its trace. -/
theorem isTrace_perform (simulates : simulation.Simulates machine)
    (keeps : simulation.keepHistory = true) (goesOn : action.GoesOn)
    (trace : Config.IsTrace (Table.ofDefinition machine) first switches simulation.config
      simulation.history.toList) :
    Config.IsTrace (Table.ofDefinition machine) first (switches ++ simulation.switchesOf action)
      (simulation.perform action).config (simulation.perform action).history.toList := by
  rw [← simulates.table] at trace ⊢
  cases action with
  | step =>
      simpa [perform, Simulation.step, keeps, switchesOf] using
        trace.step (Config.step?_of_onTape simulates.onTape)
  | run cap =>
      simpa [perform, run_fst, keeps, switchesOf, (simulation.runAgrees cap).taken] using
        trace.run simulates.onTape simulation.writeBlank cap
  | reset => exact absurd rfl goesOn.1
  | setKeepHistory keep =>
      cases keep with
      | true => simpa [perform, setKeepHistory, keeps, switchesOf] using trace
      | false => exact absurd rfl goesOn.2
  | setWriteBlank allow => simpa [perform, setWriteBlank, switchesOf] using trace

/-- A recording that goes on is kept. -/
theorem KeepsHistory.extend (simulates : start.Simulates machine)
    (kept : KeepsHistory machine start actions (start.performAll actions))
    (keeps : (start.performAll actions).keepHistory = true) (goesOn : action.GoesOn) :
    ∃ earlier later first,
      actions ++ [action] = earlier ++ later ∧ BeginsRecording machine start earlier first ∧
        (∀ action ∈ later, action.GoesOn) ∧
        Config.IsTrace (Table.ofDefinition machine) first
          ((start.performAll earlier).switchesOfAll later)
          (start.performAll (actions ++ [action])).config
          (start.performAll (actions ++ [action])).history.toList := by
  obtain ⟨earlier, later, first, rfl, begins, allGoOn, trace⟩ := kept.on keeps
  refine ⟨earlier, later ++ [action], first, List.append_assoc .., begins, ?_, ?_⟩
  · intro other member
    rcases List.mem_append.mp member with before | isLast
    · exact allGoOn other before
    · rwa [List.mem_singleton.mp isLast]
  · rw [switchesOfAll_concat, performAll_concat, ← performAll_append]
    exact isTrace_perform (simulates.performAll _) keeps goesOn trace

/-- An action that is no switch of the history leaves the switch as it is. -/
theorem keepHistory_perform (other : ∀ keep, action ≠ .setKeepHistory keep) :
    (simulation.perform action).keepHistory = simulation.keepHistory := by
  cases action with
  | step | reset | setWriteBlank => rfl
  | run cap => rw [perform, run_fst]
  | setKeepHistory keep => exact absurd rfl (other keep)

/-- Every action keeps the history. -/
theorem KeepsHistory.concat (simulates : start.Simulates machine)
    (kept : KeepsHistory machine start actions (start.performAll actions)) (action : Action) :
    KeepsHistory machine start (actions ++ [action]) (start.performAll (actions ++ [action])) := by
  have now := simulates.performAll actions
  cases action with
  | step | run | setWriteBlank =>
      refine ⟨fun off => ?_, fun on => ?_⟩
      · rw [performAll_concat] at off ⊢
        rw [keepHistory_perform (by simp)] at off
        simp [perform, Simulation.step, run_fst, setWriteBlank, off, kept.off off]
      · rw [performAll_concat, keepHistory_perform (by simp)] at on
        exact kept.extend simulates on ⟨by simp, by simp⟩
  | reset =>
      refine ⟨fun off => ?_, fun on => ?_⟩
      · rw [performAll_concat] at off ⊢
        rw [keepHistory_perform (by simp)] at off
        simp [perform, Simulation.reset, freshHistory, off]
      · rw [performAll_concat, keepHistory_perform (by simp)] at on
        refine ⟨actions ++ [.reset], [], machine.initial, by simp, .reset on, by simp, ?_⟩
        rw [performAll_concat, perform, now.reset_eq, on]
        exact Config.IsTrace.begun _ _
  | setKeepHistory keep =>
      refine ⟨fun off => ?_, fun on => ?_⟩
      · rw [performAll_concat] at off ⊢
        obtain rfl : keep = false := off
        rfl
      · obtain rfl : keep = true := by rwa [performAll_concat] at on
        cases was : (start.performAll actions).keepHistory with
        | true => exact kept.extend simulates was ⟨by simp, by simp⟩
        | false =>
            refine ⟨actions ++ [.setKeepHistory true], [], (start.performAll actions).config,
              by simp, .turnedOn was, by simp, ?_⟩
            simpa [performAll_concat, perform, setKeepHistory, was, switchesOfAll] using
              Config.IsTrace.begun _ _

/-- A simulation keeps its history from its start on. -/
theorem keepsHistory_atStart (machine : Definition) (writeBlank keepHistory : Bool) :
    KeepsHistory machine (atStart machine writeBlank keepHistory) []
      (atStart machine writeBlank keepHistory) := by
  refine ⟨fun off => ?_, fun on => ⟨[], [], machine.initial, rfl, .start on, by simp, ?_⟩⟩
  · obtain rfl : keepHistory = false := off
    rfl
  · obtain rfl : keepHistory = true := on
    exact Config.IsTrace.begun _ _

/-- Any actions keep the history. -/
theorem KeepsHistory.performAll (simulates : start.Simulates machine)
    (kept : KeepsHistory machine start earlier (start.performAll earlier))
    (later : List Action) :
    KeepsHistory machine start (earlier ++ later) (start.performAll (earlier ++ later)) := by
  induction later generalizing earlier with
  | nil => simpa using kept
  | cons action later inductionHypothesis =>
      rw [List.append_cons]
      exact inductionHypothesis (kept.concat simulates action)

/-- Turning on what is on changes nothing. -/
theorem setKeepHistory_of_on (on : simulation.keepHistory = true) :
    simulation.setKeepHistory true = simulation := by
  obtain ⟨machine, table, writeBlank, keepHistory, config, history⟩ := simulation
  obtain rfl : keepHistory = true := on
  rfl

/-- Whatever is asked of a simulation, its history is the trace since its recording began,
and empty if nothing is recorded.  Turning on what is on changes nothing, and after a reset
every request is answered as by a simulation that was just started with the same switches. -/
theorem keepsHistory_of_requests
    (started : Simulation.start machine writeBlank keepHistory = .ok start)
    (requests : List Request) :
    let current := (start.converse requests).1
    KeepsHistory machine start (requests.filterMap Request.action?) current ∧
    (current.keepHistory = true → current.setKeepHistory true = current) ∧
    ∃ fresh, Simulation.start machine current.writeBlank current.keepHistory = .ok fresh ∧
      ∀ more, current.converse (.act .reset :: more) =
        ((fresh.converse more).1, .done :: (fresh.converse more).2) := by
  intro current
  have performed : current = start.performAll (requests.filterMap Request.action?) :=
    converse_fst requests
  obtain ⟨ruled, rfl⟩ := start_eq_ok_iff.mp started
  have simulates := simulates_atStart machine writeBlank keepHistory
  refine ⟨?_, setKeepHistory_of_on, _, start_eq_ok_iff.mpr ⟨ruled, rfl⟩, fun more => ?_⟩
  · rw [performed]
    exact (keepsHistory_atStart machine writeBlank keepHistory).performAll simulates _
  · have reset : current.perform .reset =
        atStart machine current.writeBlank current.keepHistory := by
      rw [performed]
      exact (simulates.performAll _).reset_eq
    rw [converse, meet, reset]
    rfl

/-- A machine that is recorded from its second step on, with both switches turned between
its steps, and asked for a picture that is refused. -/
theorem keepsHistory_midway :
    let machine : Definition :=
      { dialect := .classic, rules := [⟨"q0", "0", "q0", "_", .right, false, none⟩],
        tape := ["0", "0", "1"], start := "q0" }
    let start := atStart machine false false
    let requests : List Request := [.act .step, .act (.setKeepHistory true),
      .act (.setWriteBlank true), .act (.run 5), .rows, .picture (-1),
      .act (.setKeepHistory true)]
    let current := (start.converse requests).1
    Simulation.start machine false false = .ok start ∧ current.keepHistory = true ∧
      KeepsHistory machine start (requests.filterMap Request.action?) current :=
  ⟨rfl, rfl, (keepsHistory_of_requests rfl _).1⟩

end Simulation

end TapeLab
