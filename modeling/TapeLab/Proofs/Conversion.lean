import TapeLab.Classic.Printer
import TapeLab.Proofs.Classic.Reading
import TapeLab.Proofs.Machine.PassingOver
import TapeLab.Source

/-!
# Converting structured machines

A structured source can declare rules that pass over their cell, and the classic notation
cannot.  A converted machine whose rules were all read back still behaves as the structured
one, as long as writing the blank is held back: a rule of a structured source that passes
over its cell is declared to write what it reads (`Structured.keeps_of_mem_rules`).
-/

namespace TapeLab

variable {source : String} {rule : Rule}

/-- No rule of a classic source passes over its cell. -/
theorem Classic.passthrough_of_mem_rules (member : rule ∈ (Classic.read source).rules) :
    rule.passthrough = false := by
  obtain ⟨_, _, _, found⟩ := exists_line_of_mem_rules member
  rw [(declares_of_readLine found).2]
  rfl

/-- A declaration without a write is a rule that writes what it reads. -/
theorem Structured.Declaration.keeps_rule (blank : Symbol) (declaration : Declaration) :
    (declaration.rule blank).Keeps := by
  intro passes
  have unwritten : declaration.action.write = none := by simpa [rule] using passes
  simp [rule, unwritten]

/-- A rule of a structured source that passes over its cell is declared to write what it
reads. -/
theorem Structured.keeps_of_mem_rules (member : rule ∈ (Structured.read source).rules) :
    rule.Keeps := by
  simp only [Structured.read, Document.definition, Document.rules, List.mem_flatMap,
    List.mem_map] at member
  obtain ⟨_, _, declaration, _, rfl⟩ := member
  exact declaration.keeps_rule _

namespace Source

/-- The classic machine that a structured source is converted to. -/
def converted (source : String) : Definition :=
  Classic.read (Classic.print (Structured.read source).rules)

/-- A structured machine with the default blank and its conversion run alike, from wherever
they begin on the tape, if the conversion kept the rules. -/
theorem stage_converted (source : String) (blank : (Structured.read source).blank = defaultBlank)
    (kept : (converted source).rules.map Rule.bare = (Structured.read source).rules.map Rule.bare)
    (config : Config) (onTape : config.OnTape) (count : Nat) :
    config.stage (Table.ofDefinition (Structured.read source)) (fun _ => false) count =
      config.stage (Table.ofDefinition (converted source)) (fun _ => false) count := by
  have keeps : ∀ rule ∈ (converted source).rules, rule.Keeps := by
    intro rule member passes
    exact absurd passes (by simp [Classic.passthrough_of_mem_rules member])
  calc config.stage (Table.ofDefinition (Structured.read source)) (fun _ => false) count
      = config.stage (Table.ofRules (Structured.read source).rules defaultBlank)
          (fun _ => false) count := by rw [Table.ofDefinition, blank]
    _ = config.stage (Table.ofRules ((Structured.read source).rules.map Rule.bare) defaultBlank)
          (fun _ => false) count :=
        (Config.stage_bare (fun _ => Structured.keeps_of_mem_rules) onTape count).symm
    _ = config.stage (Table.ofRules ((converted source).rules.map Rule.bare) defaultBlank)
          (fun _ => false) count := by rw [kept]
    _ = config.stage (Table.ofDefinition (converted source)) (fun _ => false) count :=
        Config.stage_bare keeps onTape count

/-- A machine that strikes out every one and passes over everything else. -/
def sweeper : String :=
  "table:\nsweep:\n  1: \x7bwrite: x, R\x7d\n  _: R\n"

/-- A conversion of a rule that passes over zeros, for which it is found as the fallback. -/
theorem stage_converted_sweeper :
    (Structured.read sweeper).blank = defaultBlank ∧
      (converted sweeper).rules.map Rule.bare = (Structured.read sweeper).rules.map Rule.bare ∧
      (Structured.read sweeper).initial.OnTape ∧
      (Structured.read sweeper).initial.stage (Table.ofDefinition (Structured.read sweeper))
          (fun _ => false) 3 =
        (Structured.read sweeper).initial.stage (Table.ofDefinition (converted sweeper))
          (fun _ => false) 3 := by
  have blank : (Structured.read sweeper).blank = defaultBlank := by decide +kernel
  have kept : (converted sweeper).rules.map Rule.bare =
      (Structured.read sweeper).rules.map Rule.bare := by decide +kernel
  have onTape : (Structured.read sweeper).initial.OnTape := Definition.initial_onTape _
  exact ⟨blank, kept, onTape, stage_converted sweeper blank kept _ onTape 3⟩

end Source

end TapeLab
