import TapeLab.Proofs.Machine.Stepping

/-!
# Cells along a run

What a run does to the single cells of its tape.  A step keeps every stored cell but the one
under the head, and keeps that one too unless its rule writes; the cell that a move past the
end stores is blank.  So of any two moments of a run the later one has all cells of the
earlier one, and where they differ a rule was applied there in between
(`Config.cellsLast_of_onTape`).

While writing the blank is held back, no symbol is ever erased: a rule writes a symbol or
nothing, whatever symbol it was found for.
-/

namespace TapeLab.Config

variable {table : Table} {writeBlank : Bool} {config : Config} {rule : Rule} {index : Nat}
  {switches : Nat → Bool}

/-- The next step is taken at a cell, by a rule that does not pass over it. -/
def Rewrites (table : Table) (config : Config) (index : Nat) : Prop :=
  config.status = .running ∧ config.head = index ∧
    ∃ rule, table.lookup config.state (config.scanned table) = some rule ∧
      rule.passthrough = false

/-- A rule writes under the head, if it writes at all. -/
theorem getElem?_written (inside : index < config.tape.size) :
    (config.written table writeBlank rule)[index]? =
      if writes table writeBlank rule = true ∧ config.head = index then some rule.write
      else config.tape[index]? := by
  unfold written
  cases effect : writes table writeBlank rule with
  | false => simp
  | true =>
      rw [if_pos rfl, Array.getElem?_setIfInBounds]
      by_cases here : config.head = index
      · rw [if_pos here, if_pos (here ▸ inside), if_pos ⟨rfl, here⟩]
      · rw [if_neg here, if_neg fun both => here both.2]

/-- A move changes no cell that is stored. -/
theorem getElem?_apply (inside : index < config.tape.size) :
    (config.apply table writeBlank rule).tape[index]? =
      (config.written table writeBlank rule)[index]? := by
  have stored : index < (config.written table writeBlank rule).size := by rwa [size_written]
  cases move : rule.move with
  | left | stay => simp only [apply, move]
  | right =>
      simp only [apply, move]
      split
      · rfl
      · rw [Array.getElem?_push, if_neg (Nat.ne_of_lt stored)]

/-- A rule stores at most one cell more, and that one is blank. -/
theorem getElem?_apply_beyond (beyond : config.tape.size ≤ index)
    (stored : index < (config.apply table writeBlank rule).tape.size) :
    (config.apply table writeBlank rule).tape[index]? = some table.blank := by
  cases move : rule.move with
  | left | stay =>
      simp only [apply, move, size_written] at stored
      exact absurd stored (Nat.not_lt.mpr beyond)
  | right =>
      simp only [apply, move] at stored ⊢
      split at stored
      · rw [size_written] at stored
        exact absurd stored (Nat.not_lt.mpr beyond)
      · next full =>
          rw [Array.size_push, size_written] at stored
          have last : index = (config.written table writeBlank rule).size := by
            rw [size_written]
            omega
          rw [if_neg full, Array.getElem?_push, if_pos last]

/-- No rule drops a cell. -/
theorem size_le_size_apply : config.tape.size ≤ (config.apply table writeBlank rule).tape.size := by
  cases move : rule.move with
  | left | stay => simp only [apply, move, size_written, Nat.le_refl]
  | right =>
      simp only [apply, move]
      split
      · exact Nat.le_of_eq size_written.symm
      · rw [Array.size_push, size_written]
        exact Nat.le_succ _

/-- A step drops no cell. -/
theorem size_le_size_step : config.tape.size ≤ (config.step table writeBlank).tape.size := by
  have outcome := step_outcome table writeBlank config
  generalize config.step table writeBlank = next at outcome
  cases outcome with
  | rests _ | sticks _ _ => exact Nat.le_refl _
  | applies rule _ _ => exact size_le_size_apply

/-- A step changes only the cell at which it is taken. -/
theorem getElem?_step (inside : index < config.tape.size) (kept : ¬config.Rewrites table index) :
    (config.step table writeBlank).tape[index]? = config.tape[index]? := by
  have outcome := step_outcome table writeBlank config
  generalize config.step table writeBlank = next at outcome
  cases outcome with
  | rests _ | sticks _ _ => rfl
  | applies rule running found =>
      rw [getElem?_apply inside, getElem?_written inside, if_neg]
      rintro ⟨effect, here⟩
      have passes : rule.passthrough = false := by
        simp only [writes, Bool.and_eq_true, Bool.not_eq_true'] at effect
        exact effect.1
      exact kept ⟨running, here, rule, found, passes⟩

/-- The cell that a step stores is blank. -/
theorem getElem?_step_beyond (beyond : config.tape.size ≤ index)
    (stored : index < (config.step table writeBlank).tape.size) :
    (config.step table writeBlank).tape[index]? = some table.blank := by
  have outcome := step_outcome table writeBlank config
  generalize config.step table writeBlank = next at outcome stored
  cases outcome with
  | rests _ | sticks _ _ => exact absurd stored (Nat.not_lt.mpr beyond)
  | applies rule _ _ => exact getElem?_apply_beyond beyond stored

/-- A cell holds a symbol that is not the blank. -/
def Holds (table : Table) (config : Config) (index : Nat) : Prop :=
  ∃ symbol, config.tape[index]? = some symbol ∧ symbol ≠ table.blank

/-- While writing the blank is held back, a step erases nothing. -/
theorem Holds.step (holds : config.Holds table index) :
    (config.step table false).Holds table index := by
  obtain ⟨symbol, stands, visible⟩ := holds
  have inside : index < config.tape.size := (Array.getElem?_eq_some_iff.mp stands).1
  have outcome := step_outcome table false config
  generalize config.step table false = next at outcome
  cases outcome with
  | rests _ | sticks _ _ => exact ⟨symbol, stands, visible⟩
  | applies rule _ _ =>
      unfold Holds
      rw [getElem?_apply inside, getElem?_written inside]
      split
      · next written =>
          -- What is written is not the blank, since such a write is held back.
          have effect : rule.passthrough = false ∧ rule.write ≠ table.blank := by
            simpa [writes] using written.1
          exact ⟨rule.write, rfl, effect.2⟩
      · exact ⟨symbol, stands, visible⟩

/-- What holds of the cells of a run that begins at a configuration, where every step has
its own switch for writing the blank. -/
structure CellsLast (table : Table) (switches : Nat → Bool) (config : Config) : Prop where
  /-- Every step is taken. -/
  taken : ∀ count, (config.stage table switches count).step? table (switches count) =
    some (config.stage table switches (count + 1))
  /-- The tape never gets shorter. -/
  size_le : ∀ {early late}, early ≤ late →
    (config.stage table switches early).tape.size ≤ (config.stage table switches late).tape.size
  /-- A cell that differs between two moments was rewritten at a moment between them. -/
  rewritten : ∀ {early late index}, early ≤ late →
    index < (config.stage table switches early).tape.size →
    (config.stage table switches late).tape[index]? ≠
      (config.stage table switches early).tape[index]? →
    ∃ between, early ≤ between ∧ between < late ∧
      (config.stage table switches between).Rewrites table index
  /-- Every cell that a step stores is blank at first. -/
  stored : ∀ {count index}, (config.stage table switches count).tape.size ≤ index →
    index < (config.stage table switches (count + 1)).tape.size →
    (config.stage table switches (count + 1)).tape[index]? = some table.blank
  /-- Where writing the blank is held back, nothing is erased. -/
  holds : ∀ {early late index}, early ≤ late →
    (∀ between, early ≤ between → between < late → switches between = false) →
    (config.stage table switches early).Holds table index →
    (config.stage table switches late).Holds table index

/-- A run drops no cell. -/
theorem size_le_size_stage {early late : Nat} (le : early ≤ late) :
    (config.stage table switches early).tape.size ≤
      (config.stage table switches late).tape.size := by
  induction le with
  | refl => exact Nat.le_refl _
  | step _ inductionHypothesis => exact Nat.le_trans inductionHypothesis size_le_size_step

/-- A run changes only the cells at which its steps are taken. -/
theorem getElem?_stage {early late : Nat} (le : early ≤ late)
    (inside : index < (config.stage table switches early).tape.size)
    (kept : ∀ between, early ≤ between → between < late →
      ¬(config.stage table switches between).Rewrites table index) :
    (config.stage table switches late).tape[index]? =
      (config.stage table switches early).tape[index]? := by
  induction le with
  | refl => rfl
  | @step late le inductionHypothesis =>
      have before := inductionHypothesis fun between after earlier =>
        kept between after (Nat.lt_succ_of_lt earlier)
      have stillInside := Nat.lt_of_lt_of_le inside (size_le_size_stage le)
      rw [stage, getElem?_step stillInside (kept late le (Nat.lt_succ_self late)), before]

/-- While writing the blank is held back, a run erases nothing. -/
theorem Holds.stage {early late : Nat} (le : early ≤ late)
    (heldBack : ∀ between, early ≤ between → between < late → switches between = false)
    (holds : (config.stage table switches early).Holds table index) :
    (config.stage table switches late).Holds table index := by
  induction le with
  | refl => exact holds
  | @step late le inductionHypothesis =>
      have before := inductionHypothesis fun between after earlier =>
        heldBack between after (Nat.lt_succ_of_lt earlier)
      rw [Config.stage, heldBack late le (Nat.lt_succ_self late)]
      exact before.step

/-- From the tape, a run keeps its cells as `CellsLast` says. -/
theorem cellsLast_of_onTape (table : Table) (switches : Nat → Bool) (config : Config)
    (onTape : config.OnTape) : CellsLast table switches config where
  taken count := step?_of_onTape (onTape.stage table switches count)
  size_le le := size_le_size_stage le
  rewritten le inside differs := Classical.byContradiction fun untouched =>
    differs (getElem?_stage le inside fun between after before rewrites =>
      untouched ⟨between, after, before, rewrites⟩)
  stored beyond inside := getElem?_step_beyond beyond inside
  holds le heldBack holds := holds.stage le heldBack

/-- A rule for the blank that would erase what it is found for, were the write not held back.
It stores a blank, which the next rule fills. -/
theorem cellsLast_wildcard :
    let table := Table.ofRules [⟨"a", "_", "b", "_", .right, false, none⟩,
      ⟨"b", "_", "b", "x", .stay, false, none⟩] "_"
    let config : Config := { state := "a", tape := #["1"] }
    config.OnTape ∧ config.Holds table 0 ∧ (config.stage table (fun _ => false) 2).Holds table 0 ∧
      (config.stage table (fun _ => false) 1).tape = #["1", "_"] ∧
      (config.stage table (fun _ => false) 2).tape = #["1", "x"] ∧
      ∃ between, 1 ≤ between ∧ between < 2 ∧
        (config.stage table (fun _ => false) between).Rewrites table 1 := by
  intro table config
  have onTape : config.OnTape := by decide
  have last := cellsLast_of_onTape table (fun _ => false) config onTape
  have holds : config.Holds table 0 := ⟨"1", rfl, by decide⟩
  have first : config.stage table (fun _ => false) 1 =
      { state := "b", tape := #["1", "_"], head := 1, steps := 1 } := by
    simp [table, config, Config.stage, Config.step, Table.lookup_ofRules, Table.scan,
      Table.firstFor, Rule.key, scanned, apply, written, writes]
  have second : (config.stage table (fun _ => false) 2).tape = #["1", "x"] := by
    rw [stage, first]
    simp [table, Config.step, Table.lookup_ofRules, Table.scan, Table.firstFor, Rule.key, scanned,
      apply, written, writes]
  refine ⟨onTape, holds, last.holds (Nat.zero_le 2) (fun _ _ _ => rfl) holds,
    congrArg Config.tape first, second, last.rewritten (Nat.le_succ 1) ?_ ?_⟩
  · rw [first]
    decide
  · rw [second, first]
    decide

end TapeLab.Config
