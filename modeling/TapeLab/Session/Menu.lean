import TapeLab.Session.Editing
import TapeLab.Session.Loading
import TapeLab.Session.Running

/-!
# The menu

The interactive part of a session: the menu is shown, one of its items is chosen and
done, until the user leaves.  Every round uses at least one answer, so a session
takes no more rounds than there are answers, and one more in which they run out.
-/

namespace TapeLab.Session

open Console

/-- What a session works with: its settings and the machine on the bench. -/
structure Bench where
  settings : Settings
  loaded : Option Loaded := none

namespace Bench

/-- The bench with another machine on it. -/
def withSimulation (simulation : Simulation) (loaded : Loaded) (bench : Bench) : Bench :=
  { bench with loaded := some { loaded with simulation } }

/-- The bench under other settings, which the machine on it obeys at once. -/
def withSettings (settings : Settings) (bench : Bench) : Bench where
  settings := settings
  loaded := bench.loaded.map fun loaded =>
    { loaded with simulation := applySettings settings loaded.simulation }

end Bench

/-- What stays the same during a session. -/
structure Surroundings where
  settingsPath : String
  journal : Journal
  moment : Moment

/-- The question for an item of the menu. -/
def menuQuestion : Question MenuItem where
  text := Question.shown "\nChoose an option" (MenuItem.all.map MenuItem.key)
    (some MenuItem.leave.key)
  read := fun answer =>
    if answer.isEmpty then .ok .leave
    else
      match MenuItem.ofKey? (Text.trimmed answer) with
      | some item => .ok item
      | none => .error Question.choiceComplaint

variable [Terminal]

/-- Show the menu, and the name of the machine on the bench. -/
def showMenu (bench : Bench) : Session Unit :=
  (.menu ((bench.loaded.map Loaded.name).getD "") :: MenuItem.all.map Notice.item).forM say

/-- Show the history of a simulation, if there is any. -/
def showHistory (simulation : Simulation) : Session Unit :=
  say (if simulation.history.isEmpty then .noHistory else .history simulation)

/-- Put a machine that was just loaded on the bench and show it; without one the
bench stays as it is. -/
def takeLoaded (loaded : Option Loaded) (bench : Bench) : Session Bench := do
  match loaded with
  | none => return bench
  | some loaded =>
    say (.picture bench.settings loaded.simulation)
    return { bench with loaded := some loaded }

/-- Step the machine on the bench, unless it has stopped. -/
def stepLoaded (loaded : Loaded) (bench : Bench) : Session Bench := do
  if loaded.simulation.finished then
    say .stopped
    return bench
  else
    let next := loaded.simulation.step
    say (.picture bench.settings next)
    return bench.withSimulation next loaded

/-- Do what an item says with the machine on the bench. -/
def doWithMachine (surroundings : Surroundings) (item : MenuItem) (loaded : Loaded)
    (bench : Bench) : Session Bench := do
  match item with
  | .showTable =>
    say (.rules loaded.simulation)
    return bench
  | .step => stepLoaded loaded bench
  | .run =>
    let (simulation, _) ← runMachine bench.settings (delayOf bench.settings.stepDelay)
      surroundings.journal surroundings.moment loaded.name loaded.simulation
    return bench.withSimulation simulation loaded
  | .reset =>
    let simulation := loaded.simulation.reset
    say (.picture bench.settings simulation)
    return bench.withSimulation simulation loaded
  | .showHistory =>
    showHistory loaded.simulation
    return bench
  | _ => return bench

/-- Do what an item says, which is not to leave. -/
def perform (surroundings : Surroundings) (item : MenuItem) (bench : Bench) : Session Bench := do
  if item.needsMachine then
    match bench.loaded with
    | none =>
      say .noMachine
      return bench
    | some loaded => doWithMachine surroundings item loaded bench
  else
    match item with
    | .loadFile => takeLoaded (← loadFile bench.settings) bench
    | .loadExample => takeLoaded (← loadExample bench.settings) bench
    | .editSettings =>
      return bench.withSettings (← editSettings surroundings.settingsPath bench.settings)
    | _ => return bench

/-- One round of the menu: the bench after it, or none if the user leaves. -/
def round (surroundings : Surroundings) (bench : Bench) : Session (Option Bench) := do
  showMenu bench
  let item ← ask menuQuestion
  if item == .leave then
    say .goodbye
    return none
  else return some (← perform surroundings item bench)

/-- Rounds of the menu, at most so many, until the user leaves. -/
def rounds (surroundings : Surroundings) : Nat → Bench → Session Unit
  | 0, _ => throw (.fault .answersExhausted)
  | fuel + 1, bench => do
    match ← round surroundings bench with
    | none => return
    | some next => rounds surroundings fuel next

/-- The interactive part of a session, with a journal begun first. -/
def interact (settingsPath : String) (moment : Moment) (bench : Bench) : Session Unit := do
  let journal ← onWorkspace
    (Journal.begin? bench.settings.outputDirectory bench.settings.journalPrefix moment)
  rounds { settingsPath, journal, moment } ((← get).answers.length + 1) bench

end TapeLab.Session
