import TapeLab.Proofs.Structured.Relabelling
import TapeLab.Proofs.Text.Inserting

/-!
# Structured sources with other line numbers

What the lines of a structured source add up to does not hang on their numbers, as long as
they stay in order (`Structured.definition_renumbered`).  Ignored lines add nothing and leave the
same block open.  So a source into which such a line is put declares the same machine, renumbered
(`Structured.read_of_hasLineMore`).
-/

namespace TapeLab.Structured

open TapeLab.Text

/-- A line at another place. -/
def SourceLine.renumbered (places : Renumbering) (line : SourceLine) : SourceLine :=
  { line with number := places.number line.number }

/-- Lines are read as they are at their own places. -/
theorem readLines_renumbered (places : Renumbering) (current : Option StateName)
    (numbered : List (Nat × List Char)) :
    readLines current (numbered.map (renumber places)) =
      (readLines current numbered).map (SourceLine.renumbered places) :=
  readLines_relabelled places.number current numbered

/-- Lines at other places, in the same order, add up to the same machine, renumbered. -/
theorem definition_renumbered (places : Renumbering) (lines : List SourceLine) :
    (Document.ofLines (lines.map (SourceLine.renumbered places))).definition =
      (Document.ofLines lines).definition.renumbered places := by
  rw [Definition.renumbered_eq_relabelled]
  exact definition_relabelled places.relabelling (fun _ _ => places.line_le_iff) lines

/-- An ignored line adds nothing. -/
theorem ofLines_ignored (first later : List SourceLine) (number : Nat) (text : String) :
    Document.ofLines (first ++ ⟨number, text, .ignored⟩ :: later) =
      Document.ofLines (first ++ later) := by
  have declares (blank : Symbol) :
      SourceLine.declarations blank ⟨number, text, .ignored⟩ = [] := rfl
  have problem : SourceLine.problem? ⟨number, text, .ignored⟩ = none := rfl
  simp only [Document.ofLines, settingOf?, headerStates, List.filterMap_append,
    List.filterMap_cons, List.flatMap_append, List.flatMap_cons, List.nil_append, declares, problem]

/-- Nor does it change how the lines behind it are read. -/
theorem readLines_ignored {raw : List Char}
    (ignored : ∀ current, readContent current (stripComment (trim raw)) = .ignored)
    (current : Option StateName) (number : Nat) (first later : List (Nat × List Char)) :
    ∃ before after, readLines current (first ++ later) = before ++ after ∧
      readLines current (first ++ (number, raw) :: later) =
        before ++ ⟨number, String.ofList (trim raw), .ignored⟩ :: after := by
  induction first generalizing current with
  | nil =>
      refine ⟨[], readLines current later, rfl, ?_⟩
      simp only [List.nil_append, readLines, ignored, Reading.blockAfter]
  | cons part first inductionHypothesis =>
      obtain ⟨place, text⟩ := part
      let reading := readContent current (stripComment (trim text))
      obtain ⟨before, after, plain, longer⟩ := inductionHypothesis (reading.blockAfter current)
      refine ⟨⟨place, String.ofList (trim text), reading⟩ :: before, after, ?_, ?_⟩
      · simp only [List.cons_append, readLines, plain, reading]
      · simp only [List.cons_append, readLines, longer, reading]

/-- A source with an ignored line more declares the same machine, renumbered. -/
theorem read_of_hasLineMore {source longer : String} {line : List Char} {index : Nat}
    (more : HasLineMore line index source.toList longer.toList)
    (ignored : ∀ current, readContent current (stripComment (trim line)) = .ignored) :
    read longer = (read source).renumbered (.room index) := by
  obtain ⟨first, later, roomy, numbered⟩ := more.numbered
  obtain ⟨before, after, plain, added⟩ := readLines_ignored ignored none (index + 1) first later
  have moved : (sourceLines source).map (SourceLine.renumbered (.room index)) = before ++ after := by
    rw [sourceLines, ← readLines_renumbered, roomy, plain]
  calc read longer
      _ = (Document.ofLines (readLines none (first ++ (index + 1, line) :: later))).definition := by
          rw [read, Document.read, sourceLines, numbered]
      _ = (Document.ofLines (before ++ after)).definition := by rw [added, ofLines_ignored]
      _ = (read source).renumbered (.room index) := by
          rw [← moved, definition_renumbered, read, Document.read]

end TapeLab.Structured
