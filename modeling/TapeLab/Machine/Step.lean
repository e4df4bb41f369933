import TapeLab.Machine.Table

/-!
# Running a machine

One step of a configuration under a table, runs that stop at the end of the
machine or after a given number of steps, and the trace of the configurations that
a run passes through.  Writing the blank is held back unless it is asked for, so a
rule that was found through the fallback does not erase the cell it matched.

Steps are total: a head beyond the stored cells reads the blank.  `step?` and its
companions refuse such a configuration, which no machine reaches from its start.
-/

namespace TapeLab.Config

/-- The symbol that the next step reads. -/
def scanned (table : Table) (config : Config) : Symbol :=
  config.tape.getD config.head table.blank

/-- Whether a rule changes the cell under the head. -/
def writes (table : Table) (writeBlank : Bool) (rule : Rule) : Bool :=
  !rule.passthrough && (writeBlank || rule.write != table.blank)

/-- The tape after a rule has written. -/
def written (table : Table) (writeBlank : Bool) (rule : Rule) (config : Config) :
    Array Symbol :=
  if writes table writeBlank rule then config.tape.setIfInBounds config.head rule.write
  else config.tape

/-- The configuration after a rule: it writes, then moves.  The left end holds the
head back, and a move past the last stored cell stores one blank more. -/
def apply (table : Table) (writeBlank : Bool) (rule : Rule) (config : Config) : Config :=
  let tape := config.written table writeBlank rule
  match rule.move with
  | .left =>
    { state := rule.next, tape, head := config.head - 1, steps := config.steps + 1 }
  | .right =>
    { state := rule.next
      tape := if config.head + 1 < tape.size then tape else tape.push table.blank
      head := config.head + 1
      steps := config.steps + 1 }
  | .stay =>
    { state := rule.next, tape, head := config.head, steps := config.steps + 1,
      status := .halted }

/-- The configuration of a machine that found no rule. -/
def stuck (table : Table) (config : Config) : Config :=
  { config with
    status := .errored
    missing := some ⟨config.state, config.scanned table⟩ }

/-- One step; a finished machine stays as it is. -/
def step (table : Table) (writeBlank : Bool) (config : Config) : Config :=
  match config.status with
  | .running =>
    match table.lookup config.state (config.scanned table) with
    | some rule => config.apply table writeBlank rule
    | none => config.stuck table
  | _ => config

/-- Steps until the machine is finished, but no more than `cap` of them. -/
def run (table : Table) (writeBlank : Bool) : Nat → Config → Config
  | 0, config => config
  | cap + 1, config =>
    if config.finished then config else run table writeBlank cap (config.step table writeBlank)

/-- The configurations after each step of a run of at most `cap` steps. -/
def trace (table : Table) (writeBlank : Bool) : Nat → Config → List Config
  | 0, _ => []
  | cap + 1, config =>
    if config.finished then []
    else
      let next := config.step table writeBlank
      next :: trace table writeBlank cap next

/-- The end of a run without a cap, if `fuel` steps reach it. -/
def runToEnd? (table : Table) (writeBlank : Bool) (fuel : Nat) (config : Config) : Option Config :=
  let final := config.run table writeBlank fuel
  if final.finished then some final else none

/-- A step would read a cell that is not stored. -/
def offTape (config : Config) : Bool :=
  !config.finished && !decide config.OnTape

/-- `step`, refused when it would read a cell that is not stored. -/
def step? (table : Table) (writeBlank : Bool) (config : Config) : Option Config :=
  if config.offTape then none else some (config.step table writeBlank)

/-- `run`, refused when its first step would read a cell that is not stored. -/
def run? (table : Table) (writeBlank : Bool) (cap : Nat) (config : Config) : Option Config :=
  if config.offTape && cap != 0 then none else some (config.run table writeBlank cap)

/-- `trace`, refused when its first step would read a cell that is not stored. -/
def trace? (table : Table) (writeBlank : Bool) (cap : Nat) (config : Config) :
    Option (List Config) :=
  if config.offTape && cap != 0 then none else some (config.trace table writeBlank cap)

/-- A finished machine takes no step. -/
theorem step_of_finished {table : Table} {writeBlank : Bool} {config : Config}
    (done : config.finished = true) : config.step table writeBlank = config := by
  cases statusEq : config.status <;> simp_all [finished, step]

/-- A step from the tape ends on the tape. -/
theorem OnTape.step {table : Table} {writeBlank : Bool} {config : Config}
    (onTape : config.OnTape) : (config.step table writeBlank).OnTape := by
  have sizeKept (rule : Rule) :
      (config.written table writeBlank rule).size = config.tape.size := by
    unfold written
    split <;> simp
  simp only [OnTape] at onTape ⊢
  unfold Config.step
  split
  · split
    · next rule _ =>
      simp only [Config.apply]
      split
      · simp only [sizeKept]; omega
      · simp only
        split
        · assumption
        · simp only [Array.size_push, sizeKept]; omega
      · simpa only [sizeKept] using onTape
    · simpa [stuck] using onTape
  · exact onTape

end TapeLab.Config
