import Mathlib.Logic.Equiv.Basic
import TapeLab.Machine.Renaming
import TapeLab.Proofs.Machine.Runs

/-!
# Runs of renamed machines

Names are compared by equality and by nothing else.  So under a renaming that keeps different
names different, a look-up finds the renamed rule (`Renaming.lookup_table`), a step leads to the
renamed configuration (`Renaming.step_config`), and so does every run, whatever the names of its
states, its symbols and its blank.
-/

namespace TapeLab.Renaming

variable {names : Renaming} {table : Table} {writeBlank : Bool} {rule : Rule} {config : Config}

/-- The pair of names for which a renamed rule is found. -/
def key (names : Renaming) (key : RuleKey) : RuleKey :=
  (names.state key.1, names.symbol key.2)

/-- Different pairs stay different. -/
theorem Injective.key_eq_iff (injective : names.Injective) {first second : RuleKey} :
    names.key first = names.key second ↔ first = second := by
  constructor
  · intro same
    obtain ⟨states, symbols⟩ := Prod.mk.inj same
    exact Prod.ext (injective.state states) (injective.symbol symbols)
  · rintro rfl
    rfl

/-- Different symbols stay different. -/
theorem Injective.symbol_eq_iff (injective : names.Injective) {first second : Symbol} :
    names.symbol first = names.symbol second ↔ first = second :=
  ⟨injective.symbol, congrArg names.symbol⟩

/-! ### Looking up -/

/-- The first renamed rule for a renamed pair is the first rule for the pair. -/
theorem firstFor_map_rule (injective : names.Injective) (rules : List Rule) (key : RuleKey) :
    Table.firstFor (rules.map names.rule) (names.key key) =
      (Table.firstFor rules key).map names.rule := by
  have samePairs : (fun rule : Rule => (names.rule rule).key == names.key key) =
      fun rule => rule.key == key := by
    funext rule
    have renamed : (names.rule rule).key = names.key rule.key := rfl
    rw [renamed, Bool.eq_iff_iff, beq_iff_eq, beq_iff_eq, injective.key_eq_iff]
  rw [Table.firstFor, List.find?_map, Table.firstFor]
  exact congrArg (fun test => (rules.find? test).map names.rule) samePairs

/-- The rule that a renamed machine finds is the renamed rule. -/
theorem lookup_table (injective : names.Injective) (rules : List Rule) (blank : Symbol)
    (state : StateName) (symbol : Symbol) :
    (names.table (Table.ofRules rules blank)).lookup (names.state state) (names.symbol symbol) =
      ((Table.ofRules rules blank).lookup state symbol).map names.rule := by
  have exact := firstFor_map_rule injective rules (state, symbol)
  have fallback := firstFor_map_rule injective rules (state, blank)
  rw [table, Table.lookup_ofRules, Table.lookup_ofRules, Table.scan, Table.scan, Option.map_or]
  exact congrArg₂ Option.or exact fallback

/-! ### Stepping -/

/-- The symbol under the head of a renamed machine; beyond its cells that is its own blank. -/
theorem scanned_config :
    (names.config config).scanned (names.table table) = names.symbol (config.scanned table) := by
  simp only [Config.scanned, Renaming.config, Renaming.table, Table.blank_ofRules,
    Array.getD_eq_getD_getElem?, Array.getElem?_map]
  cases config.tape[config.head]? <;> rfl

/-- A renamed rule writes exactly if the rule does: it is the table's own blank that is held
back. -/
theorem writes_rule (injective : names.Injective) :
    Config.writes (names.table table) writeBlank (names.rule rule) =
      Config.writes table writeBlank rule := by
  have sameBlank : (names.symbol rule.write != names.symbol table.blank) =
      (rule.write != table.blank) := by
    rw [Bool.eq_iff_iff, bne_iff_ne, bne_iff_ne, ne_eq, ne_eq, injective.symbol_eq_iff]
  simp only [Config.writes, Renaming.rule, Renaming.table, Table.blank_ofRules, sameBlank]

/-- A renamed rule writes its renamed symbol. -/
theorem written_config (injective : names.Injective) :
    (names.config config).written (names.table table) writeBlank (names.rule rule) =
      (config.written table writeBlank rule).map names.symbol := by
  simp only [Config.written, writes_rule injective]
  split
  · simp only [Renaming.config, Renaming.rule, Array.map_setIfInBounds]
  · rfl

/-- A renamed rule leads to the renamed configuration; the cell that it may store holds the
renamed blank. -/
theorem apply_config (injective : names.Injective) :
    (names.config config).apply (names.table table) writeBlank (names.rule rule) =
      names.config (config.apply table writeBlank rule) := by
  have written : (names.config config).written (names.table table) writeBlank (names.rule rule) =
      (config.written table writeBlank rule).map names.symbol := written_config injective
  have sameMove : (names.rule rule).move = rule.move := rfl
  cases move : rule.move with
  | left =>
      simp only [Config.apply, sameMove, move, written]
      rfl
  | right =>
      have sameHead : (names.config config).head = config.head := rfl
      simp only [Config.apply, sameMove, move, written, sameHead, Array.size_map]
      by_cases stored : config.head + 1 < (config.written table writeBlank rule).size
      · simp only [stored, if_true]
        rfl
      · simp only [stored, if_false, Renaming.config, Array.map_push]
        rfl
  | stay =>
      simp only [Config.apply, sameMove, move, written]
      rfl

/-- A renamed machine takes the renamed step. -/
theorem step_config (injective : names.Injective) (rules : List Rule) (blank : Symbol) :
    (names.config config).step (names.table (Table.ofRules rules blank)) writeBlank =
      names.config (config.step (Table.ofRules rules blank) writeBlank) := by
  have looksUp := lookup_table injective rules blank config.state
    (config.scanned (Table.ofRules rules blank))
  rw [← scanned_config] at looksUp
  have sameStatus : (names.config config).status = config.status := rfl
  have sameState : (names.config config).state = names.state config.state := rfl
  have outcome := Config.step_outcome (Table.ofRules rules blank) writeBlank config
  generalize config.step (Table.ofRules rules blank) writeBlank = next at outcome
  cases outcome with
  | rests done => exact Config.step_of_finished done
  | sticks running missed =>
      simp only [Config.step, sameStatus, running, sameState, looksUp, missed, Option.map_none]
      simp only [Config.stuck, scanned_config]
      rfl
  | applies rule running found =>
      simp only [Config.step, sameStatus, running, sameState, looksUp, found, Option.map_some]
      exact apply_config injective

/-! ### Running -/

/-- A renamed machine is at the renamed configuration after any number of steps. -/
theorem stage_config (injective : names.Injective) (rules : List Rule) (blank : Symbol)
    (switches : Nat → Bool) (count : Nat) :
    (names.config config).stage (names.table (Table.ofRules rules blank)) switches count =
      names.config (config.stage (Table.ofRules rules blank) switches count) := by
  induction count with
  | zero => rfl
  | succ count inductionHypothesis =>
      rw [Config.stage, inductionHypothesis, step_config injective, Config.stage]

/-- The trace of a renamed machine is the renamed trace. -/
theorem trace_config (injective : names.Injective) (rules : List Rule) (blank : Symbol)
    (cap : Nat) :
    (names.config config).trace (names.table (Table.ofRules rules blank)) writeBlank cap =
      (config.trace (Table.ofRules rules blank) writeBlank cap).map names.config := by
  induction cap generalizing config with
  | zero => rfl
  | succ cap inductionHypothesis =>
      have sameEnd : (names.config config).finished = config.finished := rfl
      cases done : config.finished with
      | true => rw [Config.trace_of_finished (sameEnd.trans done), Config.trace_of_finished done,
          List.map_nil]
      | false =>
          rw [Config.trace_succ (sameEnd.trans done), Config.trace_succ done,
            step_config injective, inductionHypothesis, List.map_cons]

/-- A renamed machine stands on its tape where the machine does. -/
theorem onTape_config (onTape : config.OnTape) : (names.config config).OnTape := by
  simpa only [Config.OnTape, Renaming.config, Array.size_map] using onTape

/-- From a configuration on the tape, a machine with renamed rules, blank and configuration is
refused no step and goes where the machine goes, with the new names, whatever the switches of
its steps; and so do its capped runs and its traces.  Nothing is asked of the names but that
different ones stay different. -/
theorem run_config (injective : names.Injective) (rules : List Rule) (blank : Symbol)
    (config : Config) (onTape : config.OnTape) :
    (∀ switches count,
      (names.config config).stage (names.table (Table.ofRules rules blank)) switches count =
          names.config (config.stage (Table.ofRules rules blank) switches count) ∧
        ((names.config config).stage (names.table (Table.ofRules rules blank)) switches
            count).step? (names.table (Table.ofRules rules blank)) (switches count) =
          some (names.config (config.stage (Table.ofRules rules blank) switches (count + 1)))) ∧
    (∀ writeBlank cap,
      (names.config config).run? (names.table (Table.ofRules rules blank)) writeBlank cap =
          some (names.config (config.run (Table.ofRules rules blank) writeBlank cap)) ∧
        (names.config config).trace? (names.table (Table.ofRules rules blank)) writeBlank cap =
          some ((config.trace (Table.ofRules rules blank) writeBlank cap).map names.config)) := by
  have renamedOnTape : (names.config config).OnTape := onTape_config onTape
  have staged : ∀ switches count,
      (names.config config).stage (names.table (Table.ofRules rules blank)) switches count =
        names.config (config.stage (Table.ofRules rules blank) switches count) :=
    stage_config injective rules blank
  refine ⟨fun switches count => ⟨staged switches count, ?_⟩, fun writeBlank cap => ⟨?_, ?_⟩⟩
  · rw [Config.step?_of_onTape (renamedOnTape.stage _ _ _)]
    exact congrArg some (staged switches (count + 1))
  · rw [(Config.loopsAgree_of_onTape renamedOnTape).run_taken, Config.run_eq_stage,
      Config.run_eq_stage, staged]
  · rw [(Config.loopsAgree_of_onTape renamedOnTape).trace_taken, trace_config injective]

/-- The usual blank changes its name with another symbol, and two states change theirs. -/
def exchange : Renaming where
  state := Equiv.swap "q0" "q1"
  symbol := Equiv.swap "_" "1"

/-- A machine that moves past the end of its tape and finds no rule for the blank there, under
names by which the usual blank is another machine's symbol. -/
theorem run_config_exchanged :
    let rules : List Rule := [⟨"q0", "_", "q1", "1", .right, false, none⟩]
    let config : Config := { state := "q0", tape := #["0"] }
    exchange.Injective ∧ config.OnTape ∧
      (exchange.config config).run? (exchange.table (Table.ofRules rules "_")) false 2 =
        some (exchange.config (config.run (Table.ofRules rules "_") false 2)) ∧
      (exchange.config (config.run (Table.ofRules rules "_") false 2)).missing =
        some ⟨"q0", "1"⟩ := by
  intro rules config
  have injective : exchange.Injective :=
    ⟨fun same => Equiv.injective _ same, fun same => Equiv.injective _ same⟩
  have onTape : config.OnTape := by decide
  have missed : (config.run (Table.ofRules rules "_") false 2).missing = some ⟨"q1", "_"⟩ := by
    simp [config, rules, Config.run, Config.finished, Config.step, Config.scanned, Config.apply,
      Config.written, Config.writes, Config.stuck, Table.lookup_ofRules, Table.scan,
      Table.firstFor, Rule.key]
  refine ⟨injective, onTape, ((run_config injective rules "_" config onTape).2 false 2).1, ?_⟩
  rw [Renaming.config, missed]
  decide

end TapeLab.Renaming
