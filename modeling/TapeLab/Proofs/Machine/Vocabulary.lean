import TapeLab.Proofs.FirstAppearances
import TapeLab.Proofs.Machine.Cells
import TapeLab.Proofs.Machine.PassingOver

/-!
# The vocabulary of a run

A step goes to a state that its rule names, and stores a symbol that its rule writes, or the blank.
So a run from the tape knows no states and symbols but those that it began with, the blank, and
those that a table lists (`Config.knownOnly_of_onTape`).  A table lists every name once, where the
rules name it first (`ListsFirsts.eraseDups`).
-/

namespace TapeLab

/-- On the tape on which a machine begins are the symbols of its own tape, or the blank. -/
theorem Definition.mem_tape_initial {definition : Definition} {symbol : Symbol}
    (member : symbol ∈ definition.initial.tape) :
    symbol ∈ definition.tape ∨ symbol = definition.blank := by
  unfold initial at member
  by_cases nothing : definition.tape.isEmpty = true
  · exact .inr (by simpa [nothing] using member)
  · exact .inl (by simpa [nothing] using member)

namespace Config

variable {rules : List Rule} {rule : Rule} {blank symbol : Symbol} {writeBlank : Bool}
  {config : Config}

/-! ### States and cells of a run -/

/-- A rule leads to the state that it names. -/
theorem state_apply {table : Table} : (config.apply table writeBlank rule).state = rule.next := by
  cases move : rule.move <;> simp only [apply, move]

/-- After a rule a cell holds what it did, or what the rule writes, or the blank. -/
theorem mem_tape_apply {table : Table}
    (member : symbol ∈ (config.apply table writeBlank rule).tape) :
    symbol ∈ config.tape ∨ symbol = table.blank ∨
      (rule.passthrough = false ∧ rule.write = symbol) := by
  obtain ⟨index, stands⟩ := Array.mem_iff_getElem?.mp member
  have stored := (Array.getElem?_eq_some_iff.mp stands).1
  rcases Nat.lt_or_ge index config.tape.size with inside | beyond
  · rw [getElem?_apply inside, getElem?_written inside] at stands
    split at stands
    · next written =>
        have effect : rule.passthrough = false := by
          have := written.1
          simp only [writes, Bool.and_eq_true, Bool.not_eq_true'] at this
          exact this.1
        exact .inr (.inr ⟨effect, Option.some.inj stands⟩)
    · exact .inl (Array.mem_iff_getElem?.mpr ⟨index, stands⟩)
  · rw [getElem?_apply_beyond beyond stored] at stands
    exact .inr (.inl (Option.some.inj stands).symm)

/-- A configuration whose state is the one that a run began with or one that a rule leads to, and
in whose cells are symbols that the run began with, blanks, and what a rule writes. -/
structure MadeOf (rules : List Rule) (blank : Symbol) (before after : Config) : Prop where
  state : after.state = before.state ∨ ∃ rule ∈ rules, rule.next = after.state
  cell : ∀ symbol ∈ after.tape, symbol ∈ before.tape ∨ symbol = blank ∨
    ∃ rule ∈ rules, rule.passthrough = false ∧ rule.write = symbol

/-- A step makes a configuration of what was there and what its rule names. -/
theorem MadeOf.step {before : Config} (madeOf : MadeOf rules blank before config) :
    MadeOf rules blank before (config.step (Table.ofRules rules blank) writeBlank) := by
  have outcome := step_outcome (Table.ofRules rules blank) writeBlank config
  generalize config.step (Table.ofRules rules blank) writeBlank = next at outcome
  cases outcome with
  | rests _ => exact madeOf
  | sticks _ _ => exact ⟨madeOf.state, madeOf.cell⟩
  | applies rule _ found =>
      have known : rule ∈ rules := (Table.mem_of_lookup found).1
      refine ⟨.inr ⟨rule, known, state_apply.symm⟩, fun symbol member => ?_⟩
      rcases mem_tape_apply member with kept | isBlank | written
      · exact madeOf.cell symbol kept
      · exact .inr (.inl isBlank)
      · exact .inr (.inr ⟨rule, known, written⟩)

/-- A run makes its configurations of what it began with and what its rules name. -/
theorem madeOf_stage (rules : List Rule) (blank : Symbol) (switches : Nat → Bool)
    (config : Config) (count : Nat) :
    MadeOf rules blank config (config.stage (Table.ofRules rules blank) switches count) := by
  induction count with
  | zero => exact ⟨.inl rfl, fun _ member => .inl member⟩
  | succ count inductionHypothesis => exact inductionHypothesis.step

/-! ### What a table lists -/

/-- What a run knows that begins at a configuration, where every step has its own switch for
writing the blank: the states and symbols that it began with, the blank, and those of its
table. -/
structure KnownOnly (table : Table) (switches : Nat → Bool) (config : Config) : Prop where
  /-- Every step is taken. -/
  taken : ∀ count, (config.stage table switches count).step? table (switches count) =
    some (config.stage table switches (count + 1))
  state : ∀ count, (config.stage table switches count).state = config.state ∨
    (config.stage table switches count).state ∈ table.states
  cell : ∀ count, ∀ symbol ∈ (config.stage table switches count).tape,
    symbol ∈ config.tape ∨ symbol = table.blank ∨ symbol ∈ table.symbols

/-- From the tape, a run knows only what it began with and what its table lists.  The table lists
the states of its rules, each of them once and by first appearance, where a rule names its own state
before the next one; and so it does with the symbols, the one that is read before the one that is
written. -/
theorem knownOnly_of_onTape (rules : List Rule) (blank : Symbol) (switches : Nat → Bool)
    (config : Config) (onTape : config.OnTape) :
    KnownOnly (Table.ofRules rules blank) switches config ∧
      ListsFirsts (rules.flatMap fun rule => [rule.state, rule.next])
        (Table.ofRules rules blank).states ∧
      ListsFirsts (rules.flatMap fun rule => [rule.read, rule.write])
        (Table.ofRules rules blank).symbols := by
  have states := ListsFirsts.eraseDups (rules.flatMap fun rule => [rule.state, rule.next])
  have symbols := ListsFirsts.eraseDups (rules.flatMap fun rule => [rule.read, rule.write])
  refine ⟨⟨fun count => step?_of_onTape (onTape.stage _ switches count), fun count => ?_,
    fun count symbol member => ?_⟩, states, symbols⟩
  · refine (madeOf_stage rules blank switches config count).state.imp_right ?_
    rintro ⟨rule, known, leads⟩
    exact (states.mem_iff _).mpr (List.mem_flatMap.mpr ⟨rule, known, by simp [leads]⟩)
  · refine ((madeOf_stage rules blank switches config count).cell symbol member).imp_right
      (Or.imp_right ?_)
    rintro ⟨rule, known, -, writes⟩
    exact (symbols.mem_iff _).mpr (List.mem_flatMap.mpr ⟨rule, known, by simp [writes]⟩)

/-- A run over a symbol that no rule names, which ends in a state that none is for. -/
theorem knownOnly_of_onTape_foreign :
    let rules : List Rule := [⟨"a", "_", "b", "x", .right, false, none⟩,
      ⟨"b", "x", "a", "_", .left, true, none⟩, ⟨"b", "_", "c", "y", .stay, false, none⟩]
    let config : Config := { state := "a", tape := #["7"] }
    config.OnTape ∧ KnownOnly (Table.ofRules rules "_") (fun _ => false) config ∧
      (Table.ofRules rules "_").states = ["a", "b", "c"] ∧
      (Table.ofRules rules "_").symbols = ["_", "x", "y"] :=
  ⟨by decide, (knownOnly_of_onTape _ "_" (fun _ => false) _ (by decide)).1, by decide, by decide⟩

end Config

end TapeLab
