import TapeLab.Classic.Source
import TapeLab.Machine.Relabelling

/-!
# Classic sources with other lines and texts

A classic machine is what the readings of its lines add up to (`Classic.read_eq_machineOf`), and
with other lines and texts these add up to the same machine, but for what it remembers of its
source (`Classic.machineOf_relabelled`).
-/

namespace TapeLab.Classic

/-- What a line says with another number and another text. -/
def Reading.relabelled (labels : Relabelling) : Reading → Reading
  | .rule declared => .rule (declared.relabelled labels)
  | .problem found => .problem (found.relabelled labels)
  | .tape cells => .tape cells
  | .ignored => .ignored

/-- The machine that the readings of some lines add up to. -/
def machineOf (readings : List Reading) : Definition where
  dialect := .classic
  rules := readings.filterMap Reading.rule?
  tape := tapeOf readings
  start := startState
  blank := defaultBlank
  problems := readings.filterMap Reading.problem?

/-- A source is read as its readings add up. -/
theorem read_eq_machineOf (source : String) : read source = machineOf (readings source) :=
  rfl

/-- Readings with other labels add up to the same machine, relabelled. -/
theorem machineOf_relabelled (labels : Relabelling) (readings : List Reading) :
    machineOf (readings.map (Reading.relabelled labels)) =
      (machineOf readings).relabelled labels := by
  have rules (reading : Reading) : (reading.relabelled labels).rule? =
      reading.rule?.map (Rule.relabelled labels) := by
    cases reading <;> rfl
  have problems (reading : Reading) : (reading.relabelled labels).problem? =
      reading.problem?.map (Problem.relabelled labels) := by
    cases reading <;> rfl
  have tape (reading : Reading) : (reading.relabelled labels).tape? = reading.tape? := by
    cases reading <;> rfl
  simp only [machineOf, tapeOf, Definition.relabelled, List.filterMap_map, List.map_filterMap,
    Function.comp_def, rules, problems, tape]

end TapeLab.Classic
