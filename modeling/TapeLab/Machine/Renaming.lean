import TapeLab.Machine.Step

/-!
# Renaming

Machines with other names for their states and symbols.  Names are compared by
equality and by nothing else, so a renaming under which different names stay different
changes nothing about a run.
-/

namespace TapeLab

/-- New names for states and symbols. -/
structure Renaming where
  state : StateName → StateName
  symbol : Symbol → Symbol

namespace Renaming

/-- Different names stay different. -/
structure Injective (names : Renaming) : Prop where
  state : ∀ {first second : StateName},
    names.state first = names.state second → first = second
  symbol : ∀ {first second : Symbol},
    names.symbol first = names.symbol second → first = second

/-- A renamed rule. -/
def rule (names : Renaming) (rule : Rule) : Rule :=
  { rule with
    state := names.state rule.state
    read := names.symbol rule.read
    next := names.state rule.next
    write := names.symbol rule.write }

/-- A renamed missing rule. -/
def missing (names : Renaming) (missing : MissingRule) : MissingRule where
  state := names.state missing.state
  symbol := names.symbol missing.symbol

/-- The table of renamed rules. -/
def table (names : Renaming) (table : Table) : Table :=
  Table.ofRules (table.rules.map names.rule) (names.symbol table.blank)

/-- A renamed configuration. -/
def config (names : Renaming) (config : Config) : Config :=
  { config with
    state := names.state config.state
    tape := config.tape.map names.symbol
    missing := config.missing.map names.missing }

end Renaming

end TapeLab
