import TapeLab.Fault
import TapeLab.Machine.Step
import TapeLab.Machine.TapeText

/-!
# Simulations

A machine on the bench: its definition and table, the configuration it is in, and
two switches that may be turned at any time.  One lets rules write the blank; the
other records every configuration from then on.
-/

namespace TapeLab

/-- A machine that is being simulated. -/
structure Simulation where
  definition : Definition
  table : Table
  writeBlank : Bool
  keepHistory : Bool
  config : Config
  history : Array Config

namespace Simulation

/-- The history with which recording begins. -/
def freshHistory (keepHistory : Bool) (config : Config) : Array Config :=
  if keepHistory then #[config] else #[]

/-- A simulation at the beginning of its machine. -/
def atStart (definition : Definition) (writeBlank keepHistory : Bool) : Simulation where
  definition := definition
  table := Table.ofDefinition definition
  writeBlank := writeBlank
  keepHistory := keepHistory
  config := definition.initial
  history := freshHistory keepHistory definition.initial

/-- A simulation of a machine that has something to run. -/
def start (definition : Definition) (writeBlank keepHistory : Bool) :
    Except Fault Simulation :=
  if definition.isEmpty then .error (.noRules definition.problems.length)
  else .ok (atStart definition writeBlank keepHistory)

/-- The machine takes no further step. -/
def finished (simulation : Simulation) : Bool :=
  simulation.config.finished

/-- The machine has halted by a rule. -/
def halted (simulation : Simulation) : Bool :=
  simulation.config.status == .halted

/-- The machine found no rule. -/
def errored (simulation : Simulation) : Bool :=
  simulation.config.status == .errored

/-- The simulation after one step, which is recorded if history is kept. -/
def step (simulation : Simulation) : Simulation :=
  let next := simulation.config.step simulation.table simulation.writeBlank
  { simulation with
    config := next
    history :=
      if simulation.keepHistory then simulation.history.push next else simulation.history }

/-- Steps until the machine is finished, but no more than `cap`: the simulation
after them, and what an observer makes of the configuration after each of them. -/
def runObserved {View : Type} (observe : View → Config → View) :
    Nat → View → Simulation → Simulation × View
  | 0, seen, simulation => (simulation, seen)
  | cap + 1, seen, simulation =>
    if simulation.finished then (simulation, seen)
    else
      let next := simulation.step
      runObserved observe cap (observe seen next.config) next

/-- The simulation after at most `cap` steps, and the number of steps taken. -/
def run (cap : Nat) (simulation : Simulation) : Simulation × Nat :=
  simulation.runObserved (fun taken _ => taken + 1) cap 0

/-- The simulation back at the beginning of its machine. -/
def reset (simulation : Simulation) : Simulation :=
  { simulation with
    config := simulation.definition.initial
    history := freshHistory simulation.keepHistory simulation.definition.initial }

/-- Turn the recording of history on or off.  It begins with the current
configuration, and what was recorded goes with it. -/
def setKeepHistory (keep : Bool) (simulation : Simulation) : Simulation :=
  { simulation with
    keepHistory := keep
    history :=
      if !keep then #[]
      else if simulation.keepHistory then simulation.history
      else #[simulation.config] }

/-- Let rules write the blank, or hold such writes back. -/
def setWriteBlank (allow : Bool) (simulation : Simulation) : Simulation :=
  { simulation with writeBlank := allow }

/-- A line of the history: when, where and on what the machine stood. -/
structure HistoryRow where
  steps : Nat
  state : StateName
  head : Nat
  symbol : Symbol
  status : Status
  deriving DecidableEq, Repr

/-- The line for a configuration. -/
def HistoryRow.ofConfig (table : Table) (config : Config) : HistoryRow :=
  ⟨config.steps, config.state, config.head, config.scanned table, config.status⟩

/-- The recorded history, line by line. -/
def historyRows (simulation : Simulation) : List HistoryRow :=
  simulation.history.toList.map (HistoryRow.ofConfig simulation.table)

/-- The tape as text. -/
def tapeText (simulation : Simulation) : String :=
  TapeLab.tapeText simulation.config.tape.toList simulation.definition.blank

end Simulation

end TapeLab
