import Mathlib.Data.Nat.Init
import TapeLab.Proofs.Machine.Refinement
import TapeLab.Proofs.Machine.Runs
import TapeLab.Proofs.Machine.TapeText

/-!
# Sweeping over a tape

How to reason about the run of a particular machine.  A running textbook machine is a `Stance`;
what its rules make of a symbol is said by `Acts`, once for each state and symbol.  Stances are
led from one to the next by single actions and by sweeps, in which a state passes over cells that
it leaves as they are (`comes_right`, `comes_left`), until an action ends the run.

What the textbook machine comes to, the stored machine comes to (`exists_run_of_ends`), and what
the infinite tape shows before its blanks is the text of the stored one (`tapeText_of_cells`).
-/

namespace TapeLab.Textbook

variable {rules : List Rule} {blank : Symbol} {writeBlank : Bool}

/-- Where a running machine stands: its state, its head, and what is on the tape. -/
structure Stance where
  state : StateName
  head : Nat
  cell : Nat → Symbol

/-- A machine that runs and stands somewhere after a number of steps. -/
def Stance.snapshot (stance : Stance) (steps : Nat) : Snapshot :=
  { stance with status := .running, missing := none, steps }

/-! ### Actions -/

/-- What a state does with a symbol: it leaves `written` in the cell, whether or not the blank
may be written, moves, and goes on in `next`. -/
def Acts (rules : List Rule) (blank : Symbol) (state : StateName) (symbol written : Symbol)
    (move : Move) (next : StateName) : Prop :=
  ∃ rule ∈ Table.scan rules blank state symbol, rule.next = next ∧ rule.move = move ∧
    if rule.passthrough then symbol = written
    else rule.write = written ∧ (written = blank → symbol = blank)

instance (rules : List Rule) (blank : Symbol) (state : StateName) (symbol written : Symbol)
    (move : Move) (next : StateName) : Decidable (Acts rules blank state symbol written move next) :=
  inferInstanceAs (Decidable (∃ rule ∈ Table.scan rules blank state symbol,
    rule.next = next ∧ rule.move = move ∧ if rule.passthrough then symbol = written
      else rule.write = written ∧ (written = blank → symbol = blank)))

/-- Putting down the symbol that is there changes nothing. -/
@[simp]
theorem put_self (cell : Nat → Symbol) (place : Nat) : put cell place (cell place) = cell := by
  funext index
  by_cases here : index = place
  · simp [put, here]
  · simp [put, here]

/-- The stance after an action. -/
def Stance.after (written : Symbol) (move : Move) (next : StateName) (stance : Stance) : Stance where
  state := next
  head := moved stance.head move
  cell := put stance.cell stance.head written

variable {stance : Stance} {written : Symbol} {move : Move} {next : StateName}

/-- A step does what the state does with the symbol, and ends the run if the head stays. -/
theorem step_snapshot
    (acts : Acts rules blank stance.state (stance.cell stance.head) written move next)
    (steps : Nat) :
    step rules blank writeBlank (stance.snapshot steps) =
      { (stance.after written move next).snapshot (steps + 1) with
        status := if move = .stay then .halted else .running } := by
  obtain ⟨rule, found, rfl, rfl, effect⟩ := acts
  have found : Table.scan rules blank stance.state (stance.cell stance.head) = some rule := found
  -- A write that is held back would have put down the blank that is there already.
  have cells : (if rule.passthrough = true ∨ (writeBlank = false ∧ rule.write = blank)
      then stance.cell else put stance.cell stance.head rule.write) =
        put stance.cell stance.head written := by
    cases passes : rule.passthrough with
    | true =>
        simp only [passes, if_true] at effect
        simp only [true_or, if_true, ← effect, put_self]
    | false =>
        simp only [passes, Bool.false_eq_true, if_false] at effect
        obtain ⟨rfl, onlyBlank⟩ := effect
        simp only [Bool.false_eq_true, false_or]
        split
        · next heldBack =>
          have same : stance.cell stance.head = rule.write :=
            (onlyBlank heldBack.2).trans heldBack.2.symm
          rw [← same, put_self]
        · rfl
  simp only [step, Stance.snapshot, found, if_true, apply, cells, Stance.after]

/-! ### Runs -/

/-- Steps may be taken in two parts. -/
theorem stage_add (start : Snapshot) (first more : Nat) :
    stage rules blank (fun _ => writeBlank) start (first + more) =
      stage rules blank (fun _ => writeBlank)
        (stage rules blank (fun _ => writeBlank) start first) more := by
  induction more with
  | zero => rfl
  | succ more inductionHypothesis =>
      rw [← Nat.add_assoc, stage, inductionHypothesis, stage]

/-- A running machine comes from one stance to another, in a number of steps that depends on
nothing but the stance. -/
def Comes (rules : List Rule) (blank : Symbol) (writeBlank : Bool) (before after : Stance) : Prop :=
  ∃ count, ∀ steps, stage rules blank (fun _ => writeBlank) (before.snapshot steps) count =
    after.snapshot (steps + count)

/-- A running machine comes to its end in a stance. -/
def Ends (rules : List Rule) (blank : Symbol) (writeBlank : Bool) (before final : Stance) : Prop :=
  ∃ count, ∀ steps, stage rules blank (fun _ => writeBlank) (before.snapshot steps) count =
    { final.snapshot (steps + count) with status := .halted }

theorem Comes.refl (stance : Stance) : Comes rules blank writeBlank stance stance :=
  ⟨0, fun _ => rfl⟩

theorem Comes.trans {before between after : Stance}
    (first : Comes rules blank writeBlank before between)
    (second : Comes rules blank writeBlank between after) :
    Comes rules blank writeBlank before after := by
  obtain ⟨count, leads⟩ := first
  obtain ⟨more, goesOn⟩ := second
  refine ⟨count + more, fun steps => ?_⟩
  rw [stage_add, leads, goesOn, Nat.add_assoc]

/-- A machine that comes to a stance ends where it ends from there. -/
theorem Comes.ends {before between final : Stance}
    (comes : Comes rules blank writeBlank before between)
    (ends : Ends rules blank writeBlank between final) :
    Ends rules blank writeBlank before final := by
  obtain ⟨count, leads⟩ := comes
  obtain ⟨more, goesOn⟩ := ends
  refine ⟨count + more, fun steps => ?_⟩
  rw [stage_add, leads, goesOn, Nat.add_assoc]

/-- An action after which the machine goes on. -/
theorem comes_of_acts {symbol : Symbol} (reads : stance.cell stance.head = symbol)
    (acts : Acts rules blank stance.state symbol written move next) (goesOn : move ≠ .stay) :
    Comes rules blank writeBlank stance (stance.after written move next) := by
  subst reads
  refine ⟨1, fun steps => ?_⟩
  rw [stage, stage, step_snapshot acts, if_neg goesOn]
  rfl

/-- An action that ends the run. -/
theorem ends_of_acts {symbol : Symbol} (reads : stance.cell stance.head = symbol)
    (acts : Acts rules blank stance.state symbol written .stay next) :
    Ends rules blank writeBlank stance (stance.after written .stay next) := by
  subst reads
  refine ⟨1, fun steps => ?_⟩
  rw [stage, stage, step_snapshot acts, if_pos rfl]

/-! ### Sweeps -/

/-- A state passes over a symbol in a direction: it leaves the symbol and goes on as before. -/
def PassesOver (rules : List Rule) (blank : Symbol) (state : StateName) (move : Move)
    (symbol : Symbol) : Prop :=
  Acts rules blank state symbol symbol move state

instance (rules : List Rule) (blank : Symbol) (state : StateName) (move : Move) (symbol : Symbol) :
    Decidable (PassesOver rules blank state move symbol) :=
  inferInstanceAs (Decidable (Acts rules blank state symbol symbol move state))

variable {state : StateName} {cell : Nat → Symbol} {head goal : Nat}

/-- A state that passes over cells to the right comes to the first one after them. -/
theorem comes_right (le : head ≤ goal)
    (passes : ∀ place, head ≤ place → place < goal →
      PassesOver rules blank state .right (cell place)) :
    Comes rules blank writeBlank ⟨state, head, cell⟩ ⟨state, goal, cell⟩ := by
  induction goal, le using Nat.le_induction with
  | base => exact .refl _
  | succ goal le inductionHypothesis =>
      have sofar : Comes rules blank writeBlank ⟨state, head, cell⟩ ⟨state, goal, cell⟩ :=
        inductionHypothesis fun place after before => passes place after (by omega)
      have last : Comes rules blank writeBlank ⟨state, goal, cell⟩
          (Stance.after (cell goal) .right state ⟨state, goal, cell⟩) :=
        comes_of_acts rfl (passes goal le (by omega)) (by decide)
      simp only [Stance.after, put_self] at last
      exact sofar.trans last

/-- A state that passes over cells to the left comes to the first one before them. -/
theorem comes_left (le : goal ≤ head)
    (passes : ∀ place, goal < place → place ≤ head →
      PassesOver rules blank state .left (cell place)) :
    Comes rules blank writeBlank ⟨state, head, cell⟩ ⟨state, goal, cell⟩ := by
  induction head, le using Nat.le_induction with
  | base => exact .refl _
  | succ head le inductionHypothesis =>
      have first : Comes rules blank writeBlank ⟨state, head + 1, cell⟩
          (Stance.after (cell (head + 1)) .left state ⟨state, head + 1, cell⟩) :=
        comes_of_acts rfl (passes (head + 1) (by omega) (Nat.le_refl _)) (by decide)
      simp only [Stance.after, put_self] at first
      exact first.trans (inductionHypothesis fun place after before =>
        passes place after (by omega))

/-! ### Back to the stored machine -/

/-- A machine on its tape that stands as the textbook machine does halts where that ends: it is
refused no step, and from some number of steps on every cap and no cap at all lead there. -/
theorem exists_run_of_ends {config : Config} (onTape : config.OnTape) {final : Stance}
    (stands : view blank config = stance.snapshot config.steps)
    (ends : Ends rules blank writeBlank stance final) :
    ∃ count, ∃ ended : Config, ended.status = .halted ∧ ended.state = final.state ∧
      (∀ index, ended.tape.getD index blank = final.cell index) ∧
      ∀ cap, count ≤ cap →
        config.run? (Table.ofRules rules blank) writeBlank cap = some ended ∧
          config.runToEnd? (Table.ofRules rules blank) writeBlank cap = some ended := by
  obtain ⟨count, leads⟩ := ends
  have seen : view blank (config.stage (Table.ofRules rules blank) (fun _ => writeBlank) count) =
      stage rules blank (fun _ => writeBlank) (view blank config) count :=
    view_stage onTape (fun _ => writeBlank) count
  rw [stands, leads, ← Config.run_eq_stage] at seen
  have halted : (config.run (Table.ofRules rules blank) writeBlank count).status = .halted :=
    congrArg Snapshot.status seen
  have done : (config.run (Table.ofRules rules blank) writeBlank count).finished = true :=
    Config.finished_eq_true_iff.mpr (by rw [halted]; decide)
  have loops : Config.LoopsAgree (Table.ofRules rules blank) writeBlank config :=
    Config.loopsAgree_of_onTape onTape
  refine ⟨count, config.run (Table.ofRules rules blank) writeBlank count, halted,
    congrArg Snapshot.state seen, congrFun (congrArg Snapshot.cell seen), fun cap le => ?_⟩
  obtain ⟨same, toEnd⟩ := loops.ends count done cap le
  exact ⟨by rw [loops.run_taken, same], toEnd⟩

/-- A word on a tape is the text of the tape, if blanks come after it and its last character is
none of the blank's. -/
theorem tapeText_of_cells {tape : Array Symbol} {word : List Symbol}
    (shows : ∀ index, tape.getD index blank = word.getD index blank)
    (stored : word.length ≤ tape.size)
    (ends : ∀ c ∈ (word.flatMap String.toList).getLast?, c ∉ blank.toList) :
    tapeText tape.toList blank = String.ofList (word.flatMap String.toList) := by
  obtain ⟨count, rfl⟩ : ∃ count, tape = word.toArray ++ Array.replicate count blank := by
    refine ⟨_, eq_append_blanks stored fun index => ?_⟩
    rw [shows index]
    simp [Array.getD_eq_getD_getElem?]
  rw [Array.toList_append, Array.toList_replicate, tapeText_append_blanks,
    dropTrailing_eq_self_iff.mpr ends]

end TapeLab.Textbook
