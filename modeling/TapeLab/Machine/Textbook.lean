import TapeLab.Machine.Step

/-!
# The textbook machine

A machine on a tape that is infinite to the right, where every cell has a symbol
and nothing is ever appended.  Rules are found by reading the list from the top.
`view` shows a stored configuration as a textbook one: beyond its last cell the
tape is blank.
-/

namespace TapeLab.Textbook

/-- A configuration of the textbook machine. -/
structure Snapshot where
  state : StateName
  head : Nat
  status : Status
  missing : Option MissingRule
  steps : Nat
  cell : Nat → Symbol

/-- The tape after a symbol was written at a place. -/
def put (cell : Nat → Symbol) (place : Nat) (symbol : Symbol) : Nat → Symbol :=
  fun index => if index = place then symbol else cell index

/-- The place of the head after a move; the left end holds it back. -/
def moved (head : Nat) : Move → Nat
  | .left => head - 1
  | .right => head + 1
  | .stay => head

/-- The configuration after a rule. -/
def apply (blank : Symbol) (writeBlank : Bool) (rule : Rule) (before : Snapshot) : Snapshot where
  state := rule.next
  head := moved before.head rule.move
  status := if rule.move = .stay then .halted else .running
  missing := none
  steps := before.steps + 1
  cell :=
    if rule.passthrough = true ∨ (writeBlank = false ∧ rule.write = blank) then before.cell
    else put before.cell before.head rule.write

/-- One step under a list of rules. -/
def step (rules : List Rule) (blank : Symbol) (writeBlank : Bool) (before : Snapshot) :
    Snapshot :=
  if before.status = .running then
    match Table.scan rules blank before.state (before.cell before.head) with
    | some rule => apply blank writeBlank rule before
    | none =>
      { before with
        status := .errored
        missing := some ⟨before.state, before.cell before.head⟩ }
  else before

/-- A stored configuration as the textbook sees it. -/
def view (blank : Symbol) (config : Config) : Snapshot where
  state := config.state
  head := config.head
  status := config.status
  missing := config.missing
  steps := config.steps
  cell := fun index => config.tape.getD index blank

end TapeLab.Textbook
