import TapeLab.Proofs.Classic.Comment
import TapeLab.Proofs.Classic.Relabelling
import TapeLab.Proofs.Structured.Comment
import TapeLab.Proofs.Text.Extending

/-!
# Comments behind lines

A comment behind a line, with a space before its hash, changes nothing but the text that is quoted
when the line is reported as a problem.  In the structured notation no quote may be left open in
the line; in the classic one the comment may not begin with a separator, which would make a field
of the hash (`withoutTexts_trailing`).
-/

namespace TapeLab

open TapeLab.Text

variable {source commented : String} {line comment : List Char} {index : Nat}

namespace Classic

/-- A line says the same with a comment behind it, but for the text that is quoted. -/
theorem readLine_trailing (noSeparator : ¬BeginsWithSeparator comment) (number : Nat)
    (line : List Char) :
    (readLine number (line ++ ' ' :: '#' :: comment)).relabelled .unquoted =
      (readLine number line).relabelled .unquoted := by
  obtain ⟨blanks, -, parted, trimmed⟩ :=
    trim_append_visible (by decide : isBlank '#' = false) line comment
  cases begun : trim line with
  | nil =>
      rw [readLine, readLine, trimmed, begun, parted.mp begun]
      rfl
  | cons c rest =>
      have content : stripComment (trim (line ++ ' ' :: '#' :: comment)) =
          stripComment (trim line) := stripComment_trailing (by simp [begun]) noSeparator
      rw [trimmed, begun, List.cons_append] at content
      simp only [readLine, readTrimmed, trimmed, begun, List.cons_append, List.isEmpty_cons,
        List.head?_cons, content]
      -- Whatever the content of the line is read as, its text comes in only where it is a problem.
      split
      · rfl
      · cases tapeCells? (stripComment (c :: rest)) with
        | some cells => rfl
        | none => cases readRule (stripComment (c :: rest)) (some (number : Int)) <;> rfl

/-- The machine without texts is what the readings without texts add up to. -/
theorem withoutTexts_read (source : String) :
    (read source).withoutTexts = machineOf ((readings source).map (Reading.relabelled .unquoted)) := by
  rw [machineOf_relabelled, Definition.relabelled_unquoted, read_eq_machineOf]

/-- A comment behind a line changes nothing but quoted texts. -/
theorem withoutTexts_read_trailing
    (longer : HasLineLonger (' ' :: '#' :: comment) line index source.toList commented.toList)
    (noSeparator : ¬BeginsWithSeparator comment) :
    (read commented).withoutTexts = (read source).withoutTexts := by
  have same : (readings commented).map (Reading.relabelled .unquoted) =
      (readings source).map (Reading.relabelled .unquoted) := by
    simp only [readings, List.map_map, Function.comp_def]
    exact longer.map_numberFrom_eq fun number => readLine_trailing noSeparator number line
  rw [withoutTexts_read, withoutTexts_read, same]

end Classic

namespace Structured

/-- The machine without texts is what the lines without texts add up to. -/
theorem withoutTexts_read (source : String) : (read source).withoutTexts =
    (Document.ofLines ((sourceLines source).map (SourceLine.relabelled .unquoted))).definition := by
  have ordered : Relabelling.unquoted.KeepsOrder := fun before after => by
    rw [Relabelling.line_unquoted]
    rfl
  rw [definition_relabelled .unquoted ordered, Definition.relabelled_unquoted, read, Document.read]

/-- A comment behind a line changes nothing but quoted texts. -/
theorem withoutTexts_read_trailing
    (longer : HasLineLonger (' ' :: '#' :: comment) line index source.toList commented.toList)
    (cut : (tokens? (stripComment (trim line))).isSome = true) :
    (read commented).withoutTexts = (read source).withoutTexts := by
  have contents : (numberFrom 1 (lines commented.toList)).map
        (fun part => (part.1, stripComment (trim part.2))) =
      (numberFrom 1 (lines source.toList)).map fun part => (part.1, stripComment (trim part.2)) :=
    longer.map_numberFrom_eq fun number => by rw [stripComment_trailing cut comment]
  rw [withoutTexts_read, withoutTexts_read, sourceLines, sourceLines, readLines_congr contents]

end Structured

/-- A comment can be put behind every line of a source, in front of the boundary that ends it, and
with one behind a line the machine is the same, as are the lines and the reasons of its problems: in
the structured notation if the line, without a comment of its own, can be cut into tokens, and in
the classic one if the comment does not begin with a separator. -/
theorem withoutTexts_trailing (stands : (lines source.toList)[index]? = some line)
    (unbroken : Unbroken comment) :
    (∃ before after, source.toList = before ++ (line ++ after) ∧
        HasLineLonger (' ' :: '#' :: comment) line index source.toList
          (before ++ (line ++ (' ' :: '#' :: comment ++ after)))) ∧
      ∀ commented : String,
        HasLineLonger (' ' :: '#' :: comment) line index source.toList commented.toList →
        ((Structured.tokens? (Structured.stripComment (trim line))).isSome = true →
            (Structured.read commented).withoutTexts = (Structured.read source).withoutTexts) ∧
          (¬Classic.BeginsWithSeparator comment →
            (Classic.read commented).withoutTexts = (Classic.read source).withoutTexts) := by
  obtain ⟨before, after, cut, longer⟩ := exists_hasLineLonger stands
  have whole : Unbroken (' ' :: '#' :: comment) :=
    unbroken_cons.mpr ⟨by decide, unbroken_cons.mpr ⟨by decide, unbroken⟩⟩
  refine ⟨⟨before, after, cut, longer _ whole⟩, fun commented commentedLonger => ⟨?_, ?_⟩⟩
  · exact Structured.withoutTexts_read_trailing commentedLonger
  · exact Classic.withoutTexts_read_trailing commentedLonger

/-- A comment with a quote, a brace and a hash of its own, behind a line on which a hash is a
symbol. -/
theorem withoutTexts_trailing_hash :
    (Structured.read "s:\n  '#': R # it's \x7b #\n  0: L\n").withoutTexts =
        (Structured.read "s:\n  '#': R\n  0: L\n").withoutTexts ∧
      (Classic.read "q0, #, 1, R # it's \x7b #\nq0, 0, L\n").withoutTexts =
        (Classic.read "q0, #, 1, R\nq0, 0, L\n").withoutTexts := by
  have structured : HasLineLonger " # it's \x7b #".toList "  '#': R".toList 1
      "s:\n  '#': R\n  0: L\n".toList "s:\n  '#': R # it's \x7b #\n  0: L\n".toList :=
    ⟨by decide +kernel, by decide +kernel⟩
  have classic : HasLineLonger " # it's \x7b #".toList "q0, #, 1, R".toList 0
      "q0, #, 1, R\nq0, 0, L\n".toList "q0, #, 1, R # it's \x7b #\nq0, 0, L\n".toList :=
    ⟨by decide +kernel, by decide +kernel⟩
  have noSeparator : ¬Classic.BeginsWithSeparator " it's \x7b #".toList :=
    mt Classic.endsField_iff.mpr (by decide +kernel)
  have unbroken : Unbroken " it's \x7b #".toList := by decide +kernel
  exact ⟨((withoutTexts_trailing structured.stands unbroken).2 _ structured).1 (by decide +kernel),
    ((withoutTexts_trailing classic.stands unbroken).2 _ classic).2 noSeparator⟩

end TapeLab
