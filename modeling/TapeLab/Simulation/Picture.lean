import TapeLab.Simulation.Basic

/-!
# Pictures of a tape

The part of a tape around the head, a caret under the head, and a line about the
configuration.  All cells shown are padded to the longest of them, so the caret
stands in the column in which the head's cell begins.
-/

namespace TapeLab.Picture

open TapeLab.Text

/-- A text with spaces after it up to a width. -/
def padEnd (width : Nat) (text : List Char) : List Char :=
  text ++ List.replicate (width - text.length) ' '

/-- Texts with a space between them. -/
def spaced (texts : List (List Char)) : List Char :=
  List.intercalate [' '] texts

/-- The first cell in a window around the head. -/
def firstCell (window : Nat) (config : Config) : Nat :=
  config.head - window

/-- The cells in a window around the head. -/
def shownCells (window : Nat) (config : Config) : List Nat :=
  List.range' (firstCell window config) (config.head + window + 1 - firstCell window config)

/-- What a cell shows: its symbol, or the blank beyond the stored tape. -/
def cellText (blank : Symbol) (config : Config) (cell : Nat) : List Char :=
  (config.tape.getD cell blank).toList

/-- The length of the longest of some texts. -/
def widest (texts : List (List Char)) : Nat :=
  texts.foldl (fun width text => max width text.length) 0

/-- The line of cells, before the spaces at its end are cut. -/
def cellLine (blank : Symbol) (window : Nat) (config : Config) : List Char :=
  let texts := (shownCells window config).map (cellText blank config)
  spaced (texts.map (padEnd (widest texts)))

/-- The line with the caret, before the spaces at its end are cut. -/
def caretLine (blank : Symbol) (window : Nat) (config : Config) : List Char :=
  let texts := (shownCells window config).map (cellText blank config)
  spaced ((shownCells window config).map fun cell =>
    padEnd (widest texts) [if cell = config.head then '^' else ' '])

/-- The line about the configuration. -/
def statusLine (config : Config) : String :=
  let plain := "State: " ++ config.state ++ ", Step: " ++ toString config.steps ++
    ", Status: " ++ config.status.word
  match config.missing with
  | some missing => plain ++ " (" ++ missing.message ++ ")"
  | none => plain

/-- The picture of a configuration. -/
def render (blank : Symbol) (window : Nat) (config : Config) : String :=
  String.ofList (trimEnd (cellLine blank window config)) ++ "\n" ++
    String.ofList (trimEnd (caretLine blank window config)) ++ "\n" ++ statusLine config

/-- The window of pictures that ask for none. -/
def defaultWindow : Nat := 10

end TapeLab.Picture

namespace TapeLab.Simulation

/-- The picture of the current configuration. -/
def render (window : Nat) (simulation : Simulation) : String :=
  Picture.render simulation.definition.blank window simulation.config

/-- The picture for a window of any size; a negative one shows no cell at all and
is refused. -/
def render? (window : Int) (simulation : Simulation) : Option String :=
  if window < 0 then none else some (simulation.render window.toNat)

/-- A run of which every configuration is drawn, the first one included: the
simulation after it, the number of steps taken, and the pictures. -/
def runDrawn (cap : Nat) (simulation : Simulation) : Simulation × Nat × List String :=
  let draw := Picture.render simulation.definition.blank Picture.defaultWindow
  let observe := fun (seen : Nat × List String) config => (seen.1 + 1, draw config :: seen.2)
  let (final, taken, pictures) :=
    simulation.runObserved observe cap (0, [draw simulation.config])
  (final, taken, pictures.reverse)

end TapeLab.Simulation
