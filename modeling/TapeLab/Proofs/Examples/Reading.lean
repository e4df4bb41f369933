import Mathlib.Data.List.Forall2
import TapeLab.Examples
import TapeLab.Proofs.CommentLines

/-!
# Reading the bundled machines

A bundled source is given by its lines.  Once these are spelled out, what is read from the
source is read from them (`Examples.read_unlines`), and nothing has to be cut apart.
-/

namespace TapeLab.Examples

variable {parts : List String} {spelled : List (List Char)}

/-- The lines of a bundled source, given by their characters. -/
theorem lines_unlines
    (same : List.Forall₂ (fun part line => part = String.ofList line) parts spelled)
    (whole : ∀ line ∈ spelled, Text.Unbroken line) :
    Text.lines (unlines parts).toList = spelled := by
  have joined : (unlines parts).toList = spelled.flatMap (· ++ ['\n']) := by
    have feed : "\n".toList = ['\n'] := by decide
    rw [unlines, String.toList_join, List.flatMap_map]
    clear whole
    induction same with
    | nil => rfl
    | cons first rest inductionHypothesis =>
        rw [List.flatMap_cons, List.flatMap_cons, ← inductionHypothesis, first,
          String.toList_append, String.toList_ofList, feed]
  rw [joined, Text.lines_flatMap whole]

/-- The machine that lines declare, in the notation that their markers settle. -/
def machineOfLines (spelled : List (List Char)) : Definition :=
  let numbered := Text.numberFrom 1 spelled
  if spelled.any Source.hasMarker then
    (Structured.Document.ofLines (Structured.readLines none numbered)).definition
  else Classic.machineOf (numbered.map fun line => Classic.readLine line.1 line.2)

/-- The machine of a bundled source is the one that its lines declare. -/
theorem read_unlines
    (same : List.Forall₂ (fun part line => part = String.ofList line) parts spelled)
    (whole : ∀ line ∈ spelled, Text.Unbroken line) {machine : Definition}
    (declared : machineOfLines spelled = machine) : Source.read (unlines parts) = machine := by
  have marked : Source.hasMarker (unlines parts).toList = spelled.any Source.hasMarker := by
    rw [Source.hasMarker_eq_any_lines, lines_unlines same whole]
  rw [← declared, machineOfLines, Source.read, Option.getD_none, Source.dialectOf_eq, marked]
  split
  · rw [Source.readAs, Structured.read, Structured.Document.read, Structured.sourceLines,
      lines_unlines same whole]
  · rw [Source.readAs, Classic.read_eq_machineOf, Classic.readings, lines_unlines same whole]

end TapeLab.Examples
