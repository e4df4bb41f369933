import TapeLab.Simulation.Action
import TapeLab.Simulation.Picture

/-!
# Requests to a simulation

What the owner of a simulation can ask of it, one request after another: to act, or to show
its history, its tape or a picture.  A request is answered, and only an action changes the
simulation.
-/

namespace TapeLab.Simulation

/-- Something asked of a simulation. -/
inductive Request where
  | act (action : Action)
  | rows
  | tape
  | picture (window : Int)
  deriving DecidableEq, Repr

/-- What a simulation answers. -/
inductive Answer where
  | done
  | config (config : Config)
  | taken (count : Nat)
  | rows (rows : List HistoryRow)
  | text (text : String)
  /-- A picture of no cell is refused. -/
  | refused
  deriving DecidableEq, Repr

/-- The action that a request is, if it is one. -/
def Request.action? : Request → Option Action
  | .act action => some action
  | _ => none

/-- A simulation after a request. -/
def meet (simulation : Simulation) : Request → Simulation
  | .act action => simulation.perform action
  | _ => simulation

/-- The answer to a request: a step shows the configuration after it, and a run the number
of its steps. -/
def answer (simulation : Simulation) : Request → Answer
  | .act .step => .config simulation.step.config
  | .act (.run cap) => .taken (simulation.run cap).2
  | .act _ => .done
  | .rows => .rows simulation.historyRows
  | .tape => .text simulation.tapeText
  | .picture window =>
    match simulation.render? window with
    | some picture => .text picture
    | none => .refused

/-- A simulation after requests, one after another, and its answers to them. -/
def converse (simulation : Simulation) : List Request → Simulation × List Answer
  | [] => (simulation, [])
  | request :: later =>
    let (final, answers) := (simulation.meet request).converse later
    (final, simulation.answer request :: answers)

end TapeLab.Simulation
