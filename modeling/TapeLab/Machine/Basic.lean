import TapeLab.Text.Blank
import TapeLab.Text.Quoted

/-!
# Machines and their configurations

The vocabulary of the laboratory: symbols and states are texts that are compared
by equality only, a rule writes one cell and moves the head, and a configuration
is everything that a running machine remembers.  A `Definition` is what reading a
machine source gives, whichever notation the source is written in.
-/

namespace TapeLab

/-- What a tape cell holds. -/
abbrev Symbol := String

/-- The name of a control state. -/
abbrev StateName := String

/-- What the head does after a rule has written: one cell to the left, one to the
right, or nothing, which also ends the run. -/
inductive Move where
  | left
  | right
  | stay
  deriving DecidableEq, Repr

namespace Move

/-- The letter of a move in machine sources. -/
def letter : Move → Char
  | .left => 'L'
  | .right => 'R'
  | .stay => 'N'

/-- A machine halts exactly when its head stays. -/
def halts : Move → Bool
  | .stay => true
  | _ => false

/-- The move of a letter, in either case. -/
def ofLetter? (c : Char) : Option Move :=
  if c == 'L' || c == 'l' then some .left
  else if c == 'R' || c == 'r' then some .right
  else if c == 'N' || c == 'n' then some .stay
  else none

/-- The move that a word names: its letter, with blanks around it allowed. -/
def read? (word : String) : Option Move :=
  match Text.trim word.toList with
  | [c] => ofLetter? c
  | _ => none

/-- Every move is read back from its own letter. -/
theorem ofLetter?_letter (move : Move) : ofLetter? move.letter = some move := by
  cases move <;> decide

end Move

/-- A transition: in `state` reading `read`, write `write`, move, and go on in
`next`.  A pass-through rule leaves the cell as it is.  The line is where the rule
was declared, if it came from a source. -/
structure Rule where
  state : StateName
  read : Symbol
  next : StateName
  write : Symbol
  move : Move
  passthrough : Bool := false
  line : Option Int := none
  deriving DecidableEq, Repr

/-- A rule as one line of the classic notation. -/
def Rule.describe (rule : Rule) : String :=
  rule.state ++ ", " ++ rule.read ++ " -> " ++ rule.next ++ ", " ++ rule.write ++ ", " ++
    String.singleton rule.move.letter

/-- What a rule says in the classic notation, which knows neither rules that pass over
their cell nor, of itself, the line of a rule. -/
def Rule.bare (rule : Rule) : Rule :=
  { rule with passthrough := false, line := none }

/-- The classic line of a rule shows what it says there. -/
@[simp]
theorem Rule.describe_bare (rule : Rule) : rule.bare.describe = rule.describe :=
  rfl

/-- The pair for which a machine found no rule. -/
structure MissingRule where
  state : StateName
  symbol : Symbol
  deriving DecidableEq, Repr

/-- The report of a missing rule. -/
def MissingRule.message (missing : MissingRule) : String :=
  "No transition defined for state '" ++ missing.state ++ "' reading symbol '" ++
    missing.symbol ++ "'"

/-- Whether a machine goes on, has halted by a rule, or found no rule. -/
inductive Status where
  | running
  | halted
  | errored
  deriving DecidableEq, Repr

/-- The word for a status in records and pictures. -/
def Status.word : Status → String
  | .running => "running"
  | .halted => "halted"
  | .errored => "errored"

/-- A machine at one moment.  The tape holds the cells written or visited so far;
its left end is cell zero. -/
structure Config where
  state : StateName
  tape : Array Symbol
  head : Nat := 0
  steps : Nat := 0
  status : Status := .running
  missing : Option MissingRule := none
  deriving DecidableEq, Repr

namespace Config

/-- The head stands on a stored cell. -/
def OnTape (config : Config) : Prop :=
  config.head < config.tape.size

instance (config : Config) : Decidable config.OnTape :=
  inferInstanceAs (Decidable (config.head < config.tape.size))

/-- The machine takes no further step. -/
def finished (config : Config) : Bool :=
  config.status != .running

/-- The symbol under the head. -/
def symbol? (config : Config) : Option Symbol :=
  config.tape[config.head]?

end Config

/-- The two notations of machine sources. -/
inductive Dialect where
  | classic
  | structured
  deriving DecidableEq, Repr

/-- The name of a notation. -/
def Dialect.name : Dialect → String
  | .classic => "classic"
  | .structured => "structured"

/-- A line of a source that could not be used, and why. -/
structure Problem where
  line : Int
  text : String
  reason : String
  deriving DecidableEq, Repr

/-- The report of an unusable line. -/
def Problem.message (problem : Problem) : String :=
  "line " ++ toString problem.line ++ ": " ++ problem.reason ++ ": " ++
    Text.quoted problem.text

/-- The blank of a source that declares none. -/
def defaultBlank : Symbol := "_"

/-- The tape of a source that declares no input. -/
def defaultTape : List Symbol := ["0", "0", "0"]

/-- A machine as read from a source: nothing is left to be defaulted later. -/
structure Definition where
  dialect : Dialect
  rules : List Rule
  tape : List Symbol
  start : StateName
  blank : Symbol := defaultBlank
  problems : List Problem := []
  deriving DecidableEq, Repr

namespace Definition

/-- There is no rule, so there is nothing to run. -/
def isEmpty (definition : Definition) : Bool :=
  definition.rules.isEmpty

/-- How many rules were read and how many lines were not. -/
def summary (definition : Definition) : String :=
  let read := toString definition.rules.length ++ " rules parsed"
  if definition.problems.isEmpty then read
  else read ++ ", " ++ toString definition.problems.length ++ " lines skipped"

/-- The configuration in which a machine begins: its start state, head on cell
zero, and one blank cell if its tape is empty. -/
def initial (definition : Definition) : Config where
  state := definition.start
  tape := if definition.tape.isEmpty then #[definition.blank] else definition.tape.toArray

/-- A machine begins with its head on the tape. -/
theorem initial_onTape (definition : Definition) : definition.initial.OnTape := by
  cases tapeEq : definition.tape with
  | nil => simp [initial, Config.OnTape, tapeEq]
  | cons symbol rest => simp [initial, Config.OnTape, tapeEq]

end Definition

end TapeLab
