import TapeLab.Machine.Renumbering

/-!
# Relabelling

Machines that differ in what they remember of their sources only: the lines that their rules and
problems name, and the texts that their problems quote.  Other lines in the same order are one case
(`Renumbering.relabelling`); to forget the lines or the texts is another.
-/

namespace TapeLab

/-- Other numbers for the lines of a source, in any order, and other texts to be quoted. -/
structure Relabelling where
  number : Nat → Nat
  text : String → String

namespace Relabelling

/-- The new number of a line; what is no line of a source keeps its number. -/
def line (labels : Relabelling) : Int → Int
  | .ofNat number => labels.number number
  | .negSucc number => .negSucc number

/-- Every line is forgotten. -/
def unplaced : Relabelling where
  number _ := 0
  text := id

/-- Every text is forgotten. -/
def unquoted : Relabelling where
  number := id
  text _ := ""

/-- Lines that are not forgotten keep their numbers. -/
@[simp]
theorem line_unquoted : unquoted.line = id := by
  funext line
  cases line <;> rfl

/-- New numbers that leave the lines in order. -/
def KeepsOrder (labels : Relabelling) : Prop :=
  ∀ before after, labels.line before ≤ labels.line after ↔ before ≤ after

end Relabelling

/-- New numbers for the lines, which keep their texts. -/
def Renumbering.relabelling (places : Renumbering) : Relabelling where
  number := places.number
  text := id

/-- A rule with another line. -/
def Rule.relabelled (labels : Relabelling) (rule : Rule) : Rule :=
  { rule with line := rule.line.map labels.line }

/-- A problem with another line and another text. -/
def Problem.relabelled (labels : Relabelling) (problem : Problem) : Problem :=
  { problem with line := labels.line problem.line, text := labels.text problem.text }

/-- A machine with other lines and texts. -/
def Definition.relabelled (labels : Relabelling) (machine : Definition) : Definition :=
  { machine with
    rules := machine.rules.map (Rule.relabelled labels)
    problems := machine.problems.map (Problem.relabelled labels) }

/-- A machine with the texts of its problems left out; their lines and reasons stay. -/
def Definition.withoutTexts (machine : Definition) : Definition :=
  { machine with problems := machine.problems.map fun problem => { problem with text := "" } }

namespace Definition

/-- To renumber a machine is to relabel it. -/
theorem renumbered_eq_relabelled (places : Renumbering) (machine : Definition) :
    machine.renumbered places = machine.relabelled places.relabelling :=
  rfl

/-- To leave out the texts is to forget them. -/
theorem relabelled_unquoted (machine : Definition) :
    machine.relabelled .unquoted = machine.withoutTexts := by
  have rule : Rule.relabelled .unquoted = id := by
    funext rule
    simp [Rule.relabelled]
  have problem : Problem.relabelled .unquoted = fun problem => { problem with text := "" } := by
    funext problem
    rw [Problem.relabelled, Relabelling.line_unquoted]
    rfl
  rw [relabelled, rule, problem, List.map_id]
  rfl

end Definition

end TapeLab
