import TapeLab.Proofs.Classic.Relabelling
import TapeLab.Proofs.Text.Inserting

/-!
# Classic sources with other line numbers

A line of a classic source says the same at another place, but for its number
(`Classic.readLine_renumbered`), and a line that is ignored says nothing.  So a source into
which such a line is put declares the same machine, renumbered (`Classic.read_of_hasLineMore`).
-/

namespace TapeLab.Classic

open TapeLab.Text

/-- What a line says at another place. -/
def Reading.renumbered (places : Renumbering) : Reading → Reading
  | .rule declared => .rule (declared.renumbered places)
  | .problem found => .problem (found.renumbered places)
  | .tape cells => .tape cells
  | .ignored => .ignored

/-- Fields make up the same rule on another line. -/
theorem ruleOfFields_renumbered (places : Renumbering) (state read next write move : List Char)
    (line : Option Int) :
    ruleOfFields state read next write move (line.map places.line) =
      (ruleOfFields state read next write move line).map (Rule.renumbered places) := by
  unfold ruleOfFields
  split
  · rfl
  · cases Move.read? (String.ofList move) <;> rfl

/-- A text declares the same rule on another line. -/
theorem readRule_renumbered (places : Renumbering) (text : List Char) (line : Option Int) :
    readRule text (line.map places.line) =
      (readRule text line).map (Rule.renumbered places) := by
  unfold readRule
  split
  · split
    · rfl
    · split
      · exact ruleOfFields_renumbered places _ _ _ _ _ line
      · rfl
  · split
    · exact ruleOfFields_renumbered places _ _ _ _ _ line
    · rfl

/-- A line says the same at another place, but for its number. -/
theorem readLine_renumbered (places : Renumbering) (number : Nat) (line : List Char) :
    readLine (places.number number) line = (readLine number line).renumbered places := by
  unfold readLine readTrimmed
  split
  · rfl
  · dsimp only
    cases tapeCells? (stripComment (trim line)) with
    | some cells => rfl
    | none =>
        have moved := readRule_renumbered places (stripComment (trim line)) (some (number : Int))
        rw [Option.map_some, Renumbering.line_natCast] at moved
        rw [moved]
        cases readRule (stripComment (trim line)) (some (number : Int)) <;> rfl

/-- Readings at other places add up to the same machine, renumbered. -/
theorem machineOf_renumbered (places : Renumbering) (readings : List Reading) :
    machineOf (readings.map (Reading.renumbered places)) =
      (machineOf readings).renumbered places := by
  rw [Definition.renumbered_eq_relabelled]
  exact machineOf_relabelled places.relabelling readings

/-- An ignored line adds nothing. -/
theorem machineOf_ignored (first later : List Reading) :
    machineOf (first ++ .ignored :: later) = machineOf (first ++ later) := by
  have rule : Reading.ignored.rule? = none := rfl
  have problem : Reading.ignored.problem? = none := rfl
  have tape : Reading.ignored.tape? = none := rfl
  simp only [machineOf, tapeOf, List.filterMap_append, List.filterMap_cons, rule, problem, tape]

/-- A source with an ignored line more declares the same machine, renumbered. -/
theorem read_of_hasLineMore {source longer : String} {line : List Char} {index : Nat}
    (more : HasLineMore line index source.toList longer.toList)
    (ignored : ∀ number, readLine number line = .ignored) :
    read longer = (read source).renumbered (.room index) := by
  obtain ⟨first, later, roomy, numbered⟩ := more.numbered
  have moved : (readings source).map (Reading.renumbered (.room index)) =
      (first ++ later).map fun part => readLine part.1 part.2 := by
    simp only [readings, List.map_map, ← roomy, Function.comp_def, renumber, readLine_renumbered]
  have added : readings longer = (first.map fun part => readLine part.1 part.2) ++
      .ignored :: later.map fun part => readLine part.1 part.2 := by
    simp only [readings, numbered, List.map_append, List.map_cons, ignored]
  rw [read_eq_machineOf, read_eq_machineOf, ← machineOf_renumbered, moved, added,
    machineOf_ignored, List.map_append]

end TapeLab.Classic
