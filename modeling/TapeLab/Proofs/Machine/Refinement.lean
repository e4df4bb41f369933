import TapeLab.Machine.Textbook
import TapeLab.Proofs.Machine.Stepping

/-!
# The stored machine refines the textbook machine

A configuration stores only the cells that were written or visited, and a rule may have
to store one cell more.  `Textbook.view_step` shows that none of this is seen through
`view`: a step of the stored machine is a step of the textbook machine.

Configurations with the same view differ only in the blanks stored at the end of their
tapes (`Textbook.twins_iff_view_eq`), so such a difference is never felt by any run.
-/

namespace TapeLab.Textbook

variable {rules : List Rule} {blank : Symbol} {table : Table} {writeBlank : Bool}
  {rule : Rule} {config : Config}

/-- Storing one blank more after the last cell is not seen. -/
theorem getD_push_blank (tape : Array Symbol) (blank : Symbol) (index : Nat) :
    (tape.push blank).getD index blank = tape.getD index blank := by
  simp only [Array.getD_eq_getD_getElem?, Array.getElem?_push]
  split
  · next last => simp [last]
  · rfl

/-- A rule without effect on the cell is one that passes through, or one that writes the
blank while such writes are held back. -/
theorem writes_eq_false_iff :
    Config.writes table writeBlank rule = false ↔
      rule.passthrough = true ∨ (writeBlank = false ∧ rule.write = table.blank) := by
  cases passes : rule.passthrough <;> simp [Config.writes, passes]

/-- The cells after a rule has written. -/
theorem cells_written (onTape : config.OnTape) (table : Table) (writeBlank : Bool) (rule : Rule) :
    (fun index => (config.written table writeBlank rule).getD index table.blank) =
      if rule.passthrough = true ∨ (writeBlank = false ∧ rule.write = table.blank) then
        (view table.blank config).cell
      else put (view table.blank config).cell config.head rule.write := by
  have bound : config.head < config.tape.size := onTape
  cases effect : Config.writes table writeBlank rule with
  | false =>
      rw [if_pos (writes_eq_false_iff.mp effect)]
      simp [Config.written, effect, view]
  | true =>
      have effective : ¬(rule.passthrough = true ∨ (writeBlank = false ∧ rule.write = table.blank)) :=
        fun held => by simp [writes_eq_false_iff.mpr held] at effect
      rw [if_neg effective]
      funext index
      simp only [Config.written, effect, if_true, put, view, Array.getD_eq_getD_getElem?,
        Array.getElem?_setIfInBounds]
      by_cases here : index = config.head
      · simp [here, bound]
      · simp [here, Ne.symm here]

/-- Applying a rule is seen as applying it to the infinite tape. -/
theorem view_apply (onTape : config.OnTape) (table : Table) (writeBlank : Bool) (rule : Rule) :
    view table.blank (config.apply table writeBlank rule) =
      apply table.blank writeBlank rule (view table.blank config) := by
  have cells := cells_written onTape table writeBlank rule
  cases move : rule.move with
  | left =>
      simp only [view, Config.apply, move] at cells ⊢
      rw [cells]
      simp [apply, moved, move]
  | right =>
      have grown (index : Nat) :
          (if config.head + 1 < (config.written table writeBlank rule).size
            then config.written table writeBlank rule
            else (config.written table writeBlank rule).push table.blank).getD index table.blank =
          (config.written table writeBlank rule).getD index table.blank := by
        split
        · rfl
        · exact getD_push_blank _ _ index
      simp only [view, Config.apply, move, grown] at cells ⊢
      rw [cells]
      simp [apply, moved, move]
  | stay =>
      simp only [view, Config.apply, move] at cells ⊢
      rw [cells]
      simp [apply, moved, move]

/-- A step of the stored machine is seen as a step of the textbook machine. -/
theorem view_step (onTape : config.OnTape) :
    view blank (config.step (Table.ofRules rules blank) writeBlank) =
      step rules blank writeBlank (view blank config) := by
  have outcome := Config.step_outcome (Table.ofRules rules blank) writeBlank config
  generalize config.step (Table.ofRules rules blank) writeBlank = next at outcome
  cases outcome with
  | rests done =>
      have ended : config.status ≠ .running := Config.finished_eq_true_iff.mp done
      simp [step, view, ended]
  | sticks running missed =>
      rw [Table.lookup_ofRules] at missed
      simp only [Config.scanned, Table.blank_ofRules] at missed
      simp only [step, view, running, missed, Config.stuck, Config.scanned, Table.blank_ofRules,
        if_true]
  | applies rule running found =>
      rw [Table.lookup_ofRules] at found
      simp only [Config.scanned, Table.blank_ofRules] at found
      have applied := view_apply onTape (Table.ofRules rules blank) writeBlank rule
      simp only [Table.blank_ofRules] at applied
      rw [applied]
      simp only [step, view, running, found, if_true]

/-- A textbook configuration after a number of steps, each with its own switch. -/
def stage (rules : List Rule) (blank : Symbol) (switches : Nat → Bool) (start : Snapshot) :
    Nat → Snapshot
  | 0 => start
  | count + 1 => step rules blank (switches count) (stage rules blank switches start count)

/-- A run of the stored machine is seen as a run of the textbook machine. -/
theorem view_stage (onTape : config.OnTape) (switches : Nat → Bool) (count : Nat) :
    view blank (config.stage (Table.ofRules rules blank) switches count) =
      stage rules blank switches (view blank config) count := by
  induction count with
  | zero => rfl
  | succ count inductionHypothesis =>
      rw [Config.stage, view_step (onTape.stage _ switches count), inductionHypothesis]
      rfl

/-- Two configurations that differ at most in how many blanks are stored at the end of
the tape. -/
structure Twins (blank : Symbol) (left right : Config) : Prop where
  state : left.state = right.state
  head : left.head = right.head
  steps : left.steps = right.steps
  status : left.status = right.status
  missing : left.missing = right.missing
  tape : ∃ (cells : Array Symbol) (leftBlanks rightBlanks : Nat),
    left.tape = cells ++ Array.replicate leftBlanks blank ∧
      right.tape = cells ++ Array.replicate rightBlanks blank

/-- Blanks stored after the last cell are not seen. -/
theorem getD_append_blanks (cells : Array Symbol) (blank : Symbol) (count index : Nat) :
    (cells ++ Array.replicate count blank).getD index blank = cells.getD index blank := by
  simp only [Array.getD_eq_getD_getElem?, Array.getElem?_append]
  split
  · rfl
  · next beyond =>
      simp only [Array.getElem?_replicate]
      split <;> simp [Nat.le_of_not_lt beyond]

/-- Of two tapes that look alike, the longer one is the shorter with blanks after it. -/
theorem eq_append_blanks {short long : Array Symbol} (le : short.size ≤ long.size)
    (alike : ∀ index, short.getD index blank = long.getD index blank) :
    long = short ++ Array.replicate (long.size - short.size) blank := by
  apply Array.ext
  · simp
    omega
  · intro index inLong _
    have same := alike index
    simp only [Array.getD_eq_getD_getElem?, Array.getElem?_eq_getElem inLong,
      Option.getD_some] at same
    rw [← same, Array.getElem_append]
    split
    · next inShort => simp [inShort]
    · next beyond => simp [Nat.le_of_not_lt beyond]

/-- Twins are the configurations that cannot be told apart by their views. -/
theorem twins_iff_view_eq {left right : Config} :
    Twins blank left right ↔ view blank left = view blank right := by
  constructor
  · rintro ⟨state, head, steps, status, missing, cells, leftBlanks, rightBlanks, leftTape, rightTape⟩
    simp only [view, state, head, steps, status, missing, leftTape, rightTape, getD_append_blanks]
  · intro same
    simp only [view, Snapshot.mk.injEq] at same
    obtain ⟨state, head, status, missing, steps, cell⟩ := same
    refine ⟨state, head, steps, status, missing, ?_⟩
    have alike : ∀ index, left.tape.getD index blank = right.tape.getD index blank :=
      fun index => congrFun cell index
    rcases Nat.le_total left.tape.size right.tape.size with le | le
    · exact ⟨left.tape, 0, _, by simp, eq_append_blanks le alike⟩
    · exact ⟨right.tape, _, 0, eq_append_blanks le fun index => (alike index).symm, by simp⟩

/-- From the tape, every step of the stored machine is taken and is seen as a step of the
textbook machine.  So is every run; and two configurations that differ only in trailing
blanks stay so, whatever the switches of the steps. -/
theorem refines_textbook (rules : List Rule) (blank : Symbol) (config : Config)
    (onTape : config.OnTape) :
    (∀ writeBlank,
      (config.step? (Table.ofRules rules blank) writeBlank).map (view blank) =
        some (step rules blank writeBlank (view blank config))) ∧
    (∀ switches count,
      view blank (config.stage (Table.ofRules rules blank) switches count) =
        stage rules blank switches (view blank config) count) ∧
    (∀ other, other.OnTape → Twins blank config other → ∀ switches count,
      Twins blank (config.stage (Table.ofRules rules blank) switches count)
        (other.stage (Table.ofRules rules blank) switches count)) := by
  refine ⟨fun writeBlank => ?_, fun switches count => view_stage onTape switches count, ?_⟩
  · rw [Config.step?_of_onTape onTape, Option.map_some, view_step onTape]
  · intro other otherOnTape twins switches count
    have sameStart : view blank config = view blank other := twins_iff_view_eq.mp twins
    apply twins_iff_view_eq.mpr
    rw [view_stage onTape, view_stage otherOnTape, sameStart]

/-- A machine at the last stored cell, which a rule for the blank moves past the end of the
tape, and the same machine with a blank stored already. -/
theorem refines_textbook_at_the_end :
    let rules : List Rule := [⟨"a", "_", "b", "_", .right, false, none⟩]
    let config : Config := { state := "a", tape := #["1"] }
    let other : Config := { state := "a", tape := #["1", "_"] }
    config.OnTape ∧ other.OnTape ∧ Twins "_" config other ∧
      (config.step? (Table.ofRules rules "_") false).map (view "_") =
        some (step rules "_" false (view "_" config)) ∧
      Twins "_" (config.stage (Table.ofRules rules "_") (fun _ => false) 2)
        (other.stage (Table.ofRules rules "_") (fun _ => false) 2) := by
  intro rules config other
  have onTape : config.OnTape := by decide
  have otherOnTape : other.OnTape := by decide
  have twins : Twins "_" config other := ⟨rfl, rfl, rfl, rfl, rfl, #["1"], 0, 1, rfl, rfl⟩
  have refined := refines_textbook rules "_" config onTape
  exact ⟨onTape, otherOnTape, twins, refined.1 false, refined.2.2 other otherOnTape twins _ 2⟩

end TapeLab.Textbook
