import TapeLab.Simulation.Basic

/-!
# Actions on a simulation

Everything that can be done to a simulation, as data.  A statement about whatever is
done to it is a statement about a list of actions.
-/

namespace TapeLab.Simulation

/-- Something done to a simulation. -/
inductive Action where
  | step
  | run (cap : Nat)
  | reset
  | setKeepHistory (keep : Bool)
  | setWriteBlank (allow : Bool)
  deriving DecidableEq, Repr

/-- A simulation after an action. -/
def perform (simulation : Simulation) : Action → Simulation
  | .step => simulation.step
  | .run cap => (simulation.run cap).1
  | .reset => simulation.reset
  | .setKeepHistory keep => simulation.setKeepHistory keep
  | .setWriteBlank allow => simulation.setWriteBlank allow

/-- A simulation after actions, one after another. -/
def performAll (simulation : Simulation) (actions : List Action) : Simulation :=
  actions.foldl perform simulation

end TapeLab.Simulation
