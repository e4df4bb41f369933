import TapeLab.Journal
import TapeLab.Session.Basic

/-!
# Runs in a session

A machine is run to its end or to the step cap, one tick after another.  With a delay
every tick shows the machine and pauses, and at a pause the user may interrupt; the
machine then stays where it is and can be run on.  A pause that the terminal refuses
breaks off the session.  Each run is entered in the journal.
-/

namespace TapeLab.Session

open Console

/-- A delay, unless it is none at all. -/
def delayOf (seconds : Json.Value) : Option Json.Value :=
  match seconds with
  | .integer value => if value == 0 then none else some seconds
  | .float value => if value.isZero then none else some seconds
  | .bool value => if value then some seconds else none
  | _ => none

/-- What is said of how a run ended, if anything. -/
def ending (settings : Settings) (taken : Nat) (simulation : Simulation) : Option Notice :=
  if simulation.config.status == .running && settings.maxSteps ≤ taken then some (.cutOff taken)
  else if simulation.halted then some (.halted simulation)
  else none

/-- What is shown after the ticks of a run. -/
def closing (settings : Settings) (interrupted : Bool) (taken : Nat) (simulation : Simulation) :
    List Notice :=
  (if interrupted then [.interrupted] else []) ++
    .picture settings simulation :: (ending settings taken simulation).toList

variable [Terminal]

/-- A run under way: the simulation, the steps taken so far, why the terminal refused a
pause if it did, and what was shown, the latest first. -/
structure Ticking where
  simulation : Simulation
  taken : Nat := 0
  patience : Option Nat := none
  interrupted : Bool := false
  failure : Option Terminal.Failure := none
  notices : List Notice := []

namespace Ticking

/-- One step, shown and followed by a pause if there is a delay. -/
def tick (settings : Settings) (delay : Option Json.Value) (run : Ticking) : Ticking :=
  let next := run.simulation.step
  match delay with
  | none => { run with simulation := next, taken := run.taken + 1 }
  | some seconds =>
    let shown := { run with
      simulation := next
      taken := run.taken + 1
      notices := .picture settings next :: run.notices }
    match Terminal.pauseRefusal? seconds with
    | some failure => { shown with failure := some failure }
    | none =>
      { shown with
        patience := run.patience.map fun left => left - 1
        interrupted := run.patience == some 1
        notices := .pause seconds :: shown.notices }

/-- Ticks until the machine is finished, the user interrupts or a pause is refused, but no
more than `cap` of them. -/
def ticks (settings : Settings) (delay : Option Json.Value) : Nat → Ticking → Ticking
  | 0, run => run
  | cap + 1, run =>
    if run.simulation.finished || run.interrupted || run.failure.isSome then run
    else ticks settings delay cap (run.tick settings delay)

end Ticking

/-- What a session has come to once it has gone through the ticks of a run.  After an
interruption the next one is waited for. -/
def State.afterTicks (state : State) (run : Ticking) : State :=
  { state with
    patience := if run.interrupted then state.laterPatience.head? else run.patience
    laterPatience := if run.interrupted then state.laterPatience.tail else state.laterPatience
    notices := state.notices ++ run.notices.reverse.toArray }

@[simp]
theorem State.afterTicks_workspace (state : State) (run : Ticking) :
    (state.afterTicks run).workspace = state.workspace :=
  rfl

/-- Go through the ticks of a run. -/
def runTicks (settings : Settings) (delay : Option Json.Value) (simulation : Simulation) :
    Session Ticking := do
  let state ← get
  let run := Ticking.ticks settings delay settings.maxSteps
    { simulation, patience := state.patience }
  set (state.afterTicks run)
  match run.failure with
  | some failure => throw (.terminal failure)
  | none => return run

/-- Run a machine under settings: the simulation after the run and the number of
steps taken. -/
def runMachine (settings : Settings) (delay : Option Json.Value) (journal : Journal)
    (moment : Moment) (name : String) (simulation : Simulation) : Session (Simulation × Nat) := do
  let run ← runTicks settings delay simulation
  (closing settings run.interrupted run.taken run.simulation).forM say
  onWorkspace (journal.log
    (RunRecord.ofRun name run.simulation.definition run.simulation.config moment).value)
  return (run.simulation, run.taken)

end TapeLab.Session
