import TapeLab.Machine.Basic

/-!
# Renumbering

Machines whose sources have the same lines at other places.  What a machine does is not
touched; only the lines that its rules and problems name are others, and their order stays.
-/

namespace TapeLab

/-- New numbers for the lines of a source, in the same order. -/
structure Renumbering where
  number : Nat → Nat
  number_lt : ∀ {before after}, before < after → number before < number after

namespace Renumbering

/-- The new number of a line; what is no line of a source keeps its number. -/
def line (places : Renumbering) : Int → Int
  | .ofNat number => places.number number
  | .negSucc number => .negSucc number

/-- Room for one line more, after the first ones. -/
def room (index : Nat) : Renumbering where
  number line := if line ≤ index then line else line + 1
  number_lt := by
    intro before after lt
    split <;> split <;> omega

/-- Every line is behind so many others. -/
def behind (count : Nat) : Renumbering where
  number line := count + line
  number_lt lt := Nat.add_lt_add_left lt count

/-- The lines of a source are numbered by natural numbers. -/
@[simp]
theorem line_natCast (places : Renumbering) (number : Nat) :
    places.line (number : Int) = places.number number :=
  rfl

/-- New numbers are in the order of the old ones. -/
theorem number_le_iff (places : Renumbering) {before after : Nat} :
    places.number before ≤ places.number after ↔ before ≤ after := by
  constructor
  · intro le
    exact Nat.le_of_not_lt fun gt => Nat.not_lt.mpr le (places.number_lt gt)
  · intro le
    rcases Nat.lt_or_eq_of_le le with lt | rfl
    · exact Nat.le_of_lt (places.number_lt lt)
    · exact Nat.le_refl _

/-- Lines stay in order. -/
theorem line_le_iff (places : Renumbering) {before after : Int} :
    places.line before ≤ places.line after ↔ before ≤ after := by
  cases before with
  | ofNat first =>
    cases after with
    | ofNat second =>
      have kept : places.number first ≤ places.number second ↔ first ≤ second :=
        places.number_le_iff
      simp only [line, Int.ofNat_eq_natCast]
      omega
    | negSucc second => simp only [line, Int.ofNat_eq_natCast]; omega
  | negSucc first =>
    cases after with
    | ofNat second => simp only [line, Int.ofNat_eq_natCast]; omega
    | negSucc second => rfl

end Renumbering

/-- A rule that stands at another place. -/
def Rule.renumbered (places : Renumbering) (rule : Rule) : Rule :=
  { rule with line := rule.line.map places.line }

/-- A problem that stands at another place. -/
def Problem.renumbered (places : Renumbering) (problem : Problem) : Problem :=
  { problem with line := places.line problem.line }

/-- A machine whose source has its lines at other places. -/
def Definition.renumbered (places : Renumbering) (machine : Definition) : Definition :=
  { machine with
    rules := machine.rules.map (Rule.renumbered places)
    problems := machine.problems.map (Problem.renumbered places) }

end TapeLab
