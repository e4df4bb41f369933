import TapeLab.Console.Terminal
import TapeLab.Session.MenuItem
import TapeLab.Session.Sheets
import TapeLab.Settings.Basic
import TapeLab.Simulation.Picture

/-!
# Notices

Everything that a session shows, by the place that shows it and with what that place has
to show.  The wording of a notice is a function of it.  In most wordings a text from
outside is escaped; in five of them it stands as it is.
-/

namespace TapeLab.Session

open Console

/-- What a session shows. -/
inductive Notice where
  /-- A question, after which an answer is waited for. -/
  | question (text : String)
  /-- An answer cannot be used. -/
  | complaint (text : String)
  /-- A machine under settings. -/
  | picture (settings : Settings) (simulation : Simulation)
  /-- A pause of some seconds. -/
  | pause (seconds : Json.Value)
  /-- There are no settings at a path. -/
  | noSettings (path : String)
  /-- What a command line asked for cannot be done. -/
  | refused (fault : Fault)
  /-- A line of a source could not be read. -/
  | skipped (problem : Problem)
  /-- What a source was read as. -/
  | summary (definition : Definition)
  /-- A definition has nothing to run. -/
  | nothingToRun (fault : Fault)
  /-- The machine files that can be chosen. -/
  | files (paths : List Path)
  /-- A machine file that was chosen cannot be read. -/
  | unreadable (fault : Fault)
  /-- The menu, over which stands the name of the machine on the bench. -/
  | menu (machine : String)
  /-- An item of the menu. -/
  | item (offered : MenuItem)
  /-- There is no machine on the bench. -/
  | noMachine
  /-- The machine on the bench has stopped. -/
  | stopped
  /-- The transition table of a machine. -/
  | rules (simulation : Simulation)
  /-- The history of a machine. -/
  | history (simulation : Simulation)
  /-- A machine has no history. -/
  | noHistory
  /-- The user interrupted a run. -/
  | interrupted
  /-- A run was cut off after some steps. -/
  | cutOff (taken : Nat)
  /-- A machine halted in a run. -/
  | halted (simulation : Simulation)
  /-- Settings are about to be edited. -/
  | editing
  /-- Edited settings were saved. -/
  | saved
  /-- Edited settings were refused. -/
  | notSaved (fault : Fault)
  /-- The session is over. -/
  | goodbye

/-- The colour of a status. -/
def colorOf : Status → String
  | .running => "cyan"
  | .halted => "green"
  | .errored => "red"

/-- What happens on a console for a notice. -/
def Notice.event (escape : String → String) : Notice → Event
  | .question text => .question text
  | .complaint text => .complaint text
  | .picture settings simulation =>
    .picture (simulation.render settings.tapeWindow) (colorOf simulation.config.status)
  | .pause seconds => .pause seconds
  | .noSettings path => .line ("[yellow]" ++ path ++ " not found, using defaults.[/yellow]")
  | .refused fault => .line ("[red]" ++ escape fault.message ++ "[/red]")
  | .skipped problem => .line ("[yellow]Skipped " ++ escape problem.message ++ "[/yellow]")
  | .summary definition =>
    .line ("[cyan]" ++ definition.summary ++ " (" ++ definition.dialect.name ++
      " syntax).[/cyan]")
  | .nothingToRun fault => .line ("[red]" ++ fault.message ++ "[/red]")
  | .files paths => .sheet (fileSheet paths)
  | .unreadable fault => .line ("[red]" ++ fault.message ++ "[/red]")
  | .menu machine =>
    .line ("\n[bold cyan]Turing Tape Simulator[/bold cyan]" ++
      if machine.isEmpty then "" else " [dim](" ++ machine ++ ")[/dim]")
  | .item offered => .line ("[" ++ offered.key ++ "] " ++ offered.label)
  | .noMachine => .line "[red]Load a machine first.[/red]"
  | .stopped => .line "[yellow]Machine has stopped. Reset to run it again.[/yellow]"
  | .rules simulation => .sheet (ruleSheet escape simulation)
  | .history simulation => .sheet (historySheet escape simulation)
  | .noHistory =>
    .line "[yellow]No history recorded. Enable 'Keep step history' in Edit Config.[/yellow]"
  | .interrupted => .line "[yellow]Paused.[/yellow]"
  | .cutOff taken =>
    .line ("[yellow]Stopped after " ++ Text.grouped taken ++
      " steps (max_steps reached).[/yellow]")
  | .halted simulation =>
    .line ("[green]Halted in state '" ++ simulation.config.state ++ "'. Tape: " ++
      escape simulation.tapeText ++ "[/green]")
  | .editing => .line "\n[bold]Edit Configuration[/bold]"
  | .saved => .line "[green]Configuration updated successfully.[/green]"
  | .notSaved fault => .line ("[red]Configuration not saved: " ++ fault.message ++ "[/red]")
  | .goodbye => .line "[bold green]Goodbye![/bold green]"

/-- Why a notice cannot be shown on a terminal, if it cannot: one of its texts is refused. -/
def Notice.refusal? [Terminal] (notice : Notice) : Option Terminal.Failure :=
  (notice.event Terminal.escape).markedUp.findSome? Terminal.refusal?

end TapeLab.Session
