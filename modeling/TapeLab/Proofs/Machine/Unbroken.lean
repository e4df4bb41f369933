import TapeLab.Proofs.Machine.Vocabulary
import TapeLab.Proofs.Text.Lines

/-!
# Machines in whose names no line ends

A symbol may be any text, so it may have line boundaries in it, and whatever shows the symbol line
by line is then cut there.  A machine in whose names no line ends never gets to a configuration with
another name: what a step stores, goes to or reports is one of them
(`Definition.Unbroken.initial`, `Definition.Unbroken.step`).
-/

namespace TapeLab

/-- No line ends in the start state of a machine, its blank, a cell of its tape, or what one of its
rules writes or goes to. -/
structure Definition.Unbroken (machine : Definition) : Prop where
  start : Text.Unbroken machine.start.toList
  blank : Text.Unbroken machine.blank.toList
  tape : ∀ symbol ∈ machine.tape, Text.Unbroken symbol.toList
  rules : ∀ rule ∈ machine.rules, Text.Unbroken rule.next.toList ∧ Text.Unbroken rule.write.toList

/-- No line ends in the state of a configuration, in a cell of its tape, or in the pair for which it
found no rule. -/
structure Config.Unbroken (config : Config) : Prop where
  state : Text.Unbroken config.state.toList
  tape : ∀ symbol ∈ config.tape, Text.Unbroken symbol.toList
  missing : ∀ missing, config.missing = some missing →
    Text.Unbroken missing.state.toList ∧ Text.Unbroken missing.symbol.toList

variable {machine : Definition} {config : Config} {blank : Symbol} {writeBlank : Bool}

/-- No line ends in what is read of a tape, within its cells or beyond them. -/
theorem Config.Unbroken.getD (whole : config.Unbroken) (wholeBlank : Text.Unbroken blank.toList)
    (index : Nat) : Text.Unbroken (config.tape.getD index blank).toList := by
  rw [Array.getD]
  split
  · exact whole.tape _ (Array.getElem_mem _)
  · exact wholeBlank

/-- A machine in whose names no line ends begins so. -/
theorem Definition.Unbroken.initial (unbroken : machine.Unbroken) : machine.initial.Unbroken where
  state := unbroken.start
  tape symbol member := by
    rcases mem_tape_initial member with onTape | rfl
    · exact unbroken.tape symbol onTape
    · exact unbroken.blank
  missing _ isMissing := by cases isMissing

/-- It goes on so with every step. -/
theorem Definition.Unbroken.step (unbroken : machine.Unbroken) (whole : config.Unbroken) :
    (config.step (Table.ofDefinition machine) writeBlank).Unbroken := by
  have outcome := Config.step_outcome (Table.ofDefinition machine) writeBlank config
  generalize config.step (Table.ofDefinition machine) writeBlank = next at outcome
  cases outcome with
  | rests _ => exact whole
  | sticks _ _ =>
      refine ⟨whole.state, whole.tape, fun missing isMissing => ?_⟩
      obtain rfl : ⟨config.state, config.scanned (Table.ofDefinition machine)⟩ = missing := by
        simpa [Config.stuck] using isMissing
      exact ⟨whole.state, whole.getD unbroken.blank config.head⟩
  | applies rule _ found =>
      obtain ⟨next, write⟩ := unbroken.rules rule (Table.mem_of_lookup found).1
      refine ⟨Config.state_apply ▸ next, fun symbol member => ?_, by simp⟩
      rcases Config.mem_tape_apply member with kept | rfl | ⟨-, rfl⟩
      · exact whole.tape symbol kept
      · exact unbroken.blank
      · exact write

end TapeLab
