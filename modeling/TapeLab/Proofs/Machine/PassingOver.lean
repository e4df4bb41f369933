import TapeLab.Proofs.Machine.Stepping

/-!
# Rules that pass over their cell

A pass-through rule that is declared to write what it reads might as well write it, as long
as writing the blank is held back.  Found for the very symbol, it writes the symbol that is
there already; found as the fallback, it would write the blank, which is held back.  So a
machine behaves the same after its rules were freed of their marks (`Config.stage_bare`).
-/

namespace TapeLab

variable {rules : List Rule} {rule : Rule} {blank : Symbol} {config : Config}

/-- A rule that passes over its cell is declared to write what it reads. -/
def Rule.Keeps (rule : Rule) : Prop :=
  rule.passthrough = true → rule.write = rule.read

namespace Table

/-- The first rule for a pair among the rules without their marks. -/
theorem firstFor_map_bare (rules : List Rule) (key : RuleKey) :
    firstFor (rules.map Rule.bare) key = (firstFor rules key).map Rule.bare :=
  List.find?_map

/-- The rule that is found among the rules without their marks. -/
theorem lookup_map_bare (rules : List Rule) (blank : Symbol) (state : StateName)
    (symbol : Symbol) :
    (ofRules (rules.map Rule.bare) blank).lookup state symbol =
      ((ofRules rules blank).lookup state symbol).map Rule.bare := by
  rw [lookup_ofRules, lookup_ofRules, scan, scan, firstFor_map_bare, firstFor_map_bare,
    Option.map_or]

/-- A rule is found for its symbol, or as the fallback for every other one. -/
theorem mem_of_lookup {state : StateName} {symbol : Symbol}
    (found : (ofRules rules blank).lookup state symbol = some rule) :
    rule ∈ rules ∧ (rule.read = symbol ∨ rule.read = blank) := by
  have ofFirst {key : RuleKey} (first : firstFor rules key = some rule) :
      rule ∈ rules ∧ rule.read = key.2 := by
    have same : rule.key = key := by simpa using List.find?_some first
    exact ⟨List.mem_of_find?_eq_some first, same ▸ rfl⟩
  rw [lookup_ofRules, scan, Option.or_eq_some_iff] at found
  rcases found with exact | ⟨_, fallback⟩
  · exact ⟨(ofFirst exact).1, .inl (ofFirst exact).2⟩
  · exact ⟨(ofFirst fallback).1, .inr (ofFirst fallback).2⟩

end Table

namespace Config

/-- Writing the symbol that is scanned changes no tape. -/
theorem setIfInBounds_scanned (onTape : config.OnTape) (table : Table) :
    config.tape.setIfInBounds config.head (config.scanned table) = config.tape := by
  have bound : config.head < config.tape.size := onTape
  simp [Array.setIfInBounds, scanned, bound]

/-- A rule that was found has the same effect on the tape without its mark, while writing
the blank is held back. -/
theorem written_bare {table : Table} (onTape : config.OnTape) (keeps : rule.Keeps)
    (found : rule.read = config.scanned table ∨ rule.read = table.blank) :
    config.written table false rule.bare = config.written table false rule := by
  cases passes : rule.passthrough with
  | false => simp [written, writes, Rule.bare, passes]
  | true =>
      have unchanged : config.written table false rule = config.tape := by
        simp [written, writes, passes]
      rw [unchanged]
      have writesRead : rule.bare.write = rule.read := keeps passes
      simp only [written]
      split
      · next effective =>
        have visible : rule.read ≠ table.blank := by
          simpa [writes, Rule.bare, keeps passes] using effective
        rw [writesRead, found.resolve_right visible, setIfInBounds_scanned onTape]
      · rfl

/-- A rule that was found does the same without its mark, while writing the blank is held
back. -/
theorem apply_bare {table : Table} (onTape : config.OnTape) (keeps : rule.Keeps)
    (found : rule.read = config.scanned table ∨ rule.read = table.blank) :
    config.apply table false rule.bare = config.apply table false rule := by
  simp only [apply, written_bare onTape keeps found]
  rfl

/-- While writing the blank is held back, a machine takes the same step after its rules
were freed of their marks. -/
theorem step_bare (keeps : ∀ rule ∈ rules, rule.Keeps) (onTape : config.OnTape) :
    config.step (Table.ofRules (rules.map Rule.bare) blank) false =
      config.step (Table.ofRules rules blank) false := by
  -- Both tables have the blank, so the machine scans the same symbol with either.
  have looksUp : (Table.ofRules (rules.map Rule.bare) blank).lookup config.state
      (config.scanned (Table.ofRules (rules.map Rule.bare) blank)) =
        ((Table.ofRules rules blank).lookup config.state
          (config.scanned (Table.ofRules rules blank))).map Rule.bare :=
    Table.lookup_map_bare rules blank config.state _
  have outcome := step_outcome (Table.ofRules rules blank) false config
  generalize config.step (Table.ofRules rules blank) false = next at outcome
  cases outcome with
  | rests done => exact step_of_finished done
  | sticks running missed =>
      simp only [step, running, looksUp, missed, Option.map_none]
      rfl
  | applies rule running found =>
      obtain ⟨member, reads⟩ := Table.mem_of_lookup found
      simp only [step, running, looksUp, found, Option.map_some]
      exact apply_bare onTape (keeps rule member) reads

/-- While writing the blank is held back, a machine runs the same after its rules were
freed of their marks. -/
theorem stage_bare (keeps : ∀ rule ∈ rules, rule.Keeps) (onTape : config.OnTape) (count : Nat) :
    config.stage (Table.ofRules (rules.map Rule.bare) blank) (fun _ => false) count =
      config.stage (Table.ofRules rules blank) (fun _ => false) count := by
  induction count with
  | zero => rfl
  | succ count inductionHypothesis =>
      rw [stage, inductionHypothesis, step_bare keeps (onTape.stage _ _ count), stage]

end Config

end TapeLab
