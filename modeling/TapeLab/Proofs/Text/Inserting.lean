import TapeLab.Machine.Renumbering
import TapeLab.Proofs.Text.Lines

/-!
# Lines put in between

A text that is cut where a line ends has the lines of its two parts (`Text.lines_append`).  So
a line that is put in there, with a boundary of its own, is one line more, and the lines
behind it move on by one (`Text.hasLineMore_between`).
-/

namespace TapeLab.Text

variable {text before after line : List Char}

/-- A text and the same text with one line more, after its first lines. -/
structure HasLineMore (line : List Char) (index : Nat) (text longer : List Char) : Prop where
  within : index ≤ (lines text).length
  lines_eq : lines longer = (lines text).take index ++ line :: (lines text).drop index

/-- A text ends where a line ends, if some text follows: it is empty, or it ends with a
boundary that the other text does not complete. -/
def EndsLine (text after : List Char) : Prop :=
  text = [] ∨ ∃ front c, text = front ++ [c] ∧ isLineBreak c = true ∧
    ¬(c = '\r' ∧ after.head? = some '\n')

/-- A text that begins with no feed is not completing a return. -/
theorem linesFrom_eq_lines {afterReturn : Bool}
    (own : ¬(afterReturn = true ∧ after.head? = some '\n')) :
    linesFrom afterReturn after = lines after := by
  cases after with
  | nil => rfl
  | cons c rest =>
      have noFeed : (afterReturn && c == '\n') = false := by
        cases afterReturn with
        | false => rfl
        | true => simpa using own
      simp [lines, linesFrom, noFeed]

/-- A text that is not empty has a line. -/
theorem lines_ne_nil (nonempty : text ≠ []) : lines text ≠ [] := by
  cases text with
  | nil => exact absurd rfl nonempty
  | cons c rest =>
      simp only [lines, linesFrom, Bool.false_and, Bool.false_eq_true, if_false]
      split
      · simp
      · cases linesFrom false rest <;> simp [pushToFirst]

/-- A character is put in front of the first of all lines. -/
theorem pushToFirst_append (c : Char) {first : List (List Char)} (others : List (List Char))
    (nonempty : first ≠ []) : pushToFirst c (first ++ others) = pushToFirst c first ++ others := by
  cases first with
  | nil => exact absurd rfl nonempty
  | cons line later => rfl

/-- After a boundary, the lines of a text are those of the two parts. -/
theorem linesFrom_append {c : Char} (ends : isLineBreak c = true)
    (own : ¬(c = '\r' ∧ after.head? = some '\n')) (afterReturn : Bool) (front : List Char) :
    linesFrom afterReturn (front ++ c :: after) =
      linesFrom afterReturn (front ++ [c]) ++ lines after := by
  have rest : linesFrom (c == '\r') after = lines after :=
    linesFrom_eq_lines (by simpa using own)
  induction front generalizing afterReturn with
  | nil =>
      simp only [List.nil_append, linesFrom, ends, if_true, rest]
      split <;> rfl
  | cons d front inductionHypothesis =>
      simp only [List.cons_append, linesFrom, inductionHypothesis]
      split
      · rfl
      · split
        · rfl
        · exact pushToFirst_append d _ (lines_ne_nil (by simp))

/-- A text that is cut where a line ends has the lines of its parts. -/
theorem lines_append (ends : EndsLine before after) :
    lines (before ++ after) = lines before ++ lines after := by
  rcases ends with rfl | ⟨front, c, rfl, isBreak, own⟩
  · rfl
  · rw [List.append_assoc, List.singleton_append]
    exact linesFrom_append isBreak own false front

/-- A line that is put in where a line ends, and ended itself, is one line more. -/
theorem hasLineMore_between (ends : EndsLine before after) (unbroken : Unbroken line)
    (nonempty : line ≠ []) :
    HasLineMore line (lines before).length (before ++ after)
      (before ++ (line ++ '\n' :: after)) where
  within := by
    rw [lines_append ends, List.length_append]
    omega
  lines_eq := by
    have endsHere : EndsLine before (line ++ '\n' :: after) := by
      refine ends.imp id fun ⟨front, c, cut, isBreak, _⟩ => ⟨front, c, cut, isBreak, ?_⟩
      obtain ⟨d, letters, rfl⟩ := List.exists_cons_of_ne_nil nonempty
      rintro ⟨-, feed⟩
      obtain rfl : d = '\n' := by simpa using feed
      exact absurd (unbroken '\n' List.mem_cons_self) (by decide)
    rw [lines_append endsHere, lines_append_feed unbroken, lines_append ends, List.take_left,
      List.drop_left]

/-- Numbering goes on from part to part. -/
theorem numberFrom_append {α : Type} (start : Nat) (first later : List α) :
    numberFrom start (first ++ later) =
      numberFrom start first ++ numberFrom (start + first.length) later := by
  induction first generalizing start with
  | nil => rfl
  | cons part first inductionHypothesis =>
      simp only [List.cons_append, numberFrom, inductionHypothesis, List.length_cons]
      rw [Nat.add_assoc, Nat.add_comm 1]

/-- A numbered line at another place. -/
def renumber {α : Type} (places : Renumbering) (part : Nat × α) : Nat × α :=
  (places.number part.1, part.2)

/-- The lines in front of the room for another one keep their numbers. -/
theorem renumber_room_first {α : Type} {start index : Nat} {first : List α}
    (le : start + first.length ≤ index + 1) :
    (numberFrom start first).map (renumber (.room index)) = numberFrom start first := by
  refine (List.map_congr_left fun part member => ?_).trans (List.map_id _)
  obtain ⟨place, stands, numbered⟩ := mem_numberFrom_iff.mp member
  have inside : place < first.length := (List.getElem?_eq_some_iff.mp stands).1
  have early : part.1 ≤ index := by omega
  simp [renumber, Renumbering.room, early]

/-- The lines behind it move on by one. -/
theorem renumber_room_later {α : Type} {start index : Nat} (later : List α) (lt : index < start) :
    (numberFrom start later).map (renumber (.room index)) = numberFrom (start + 1) later := by
  induction later generalizing start with
  | nil => rfl
  | cons part later inductionHypothesis =>
      have moved : renumber (.room index) (start, part) = (start + 1, part) := by
        simp [renumber, Renumbering.room, Nat.not_le.mpr lt]
      rw [numberFrom, List.map_cons, moved, inductionHypothesis (Nat.lt_succ_of_lt lt), numberFrom]

/-- Lines behind others are numbered from there on. -/
theorem renumber_behind {α : Type} (count start : Nat) (parts : List α) :
    (numberFrom start parts).map (renumber (.behind count)) = numberFrom (count + start) parts := by
  induction parts generalizing start with
  | nil => rfl
  | cons part parts inductionHypothesis =>
      rw [numberFrom, List.map_cons, inductionHypothesis, numberFrom, Nat.add_assoc]
      rfl

/-- The numbered lines of a text with one line more: those of the text, for which room is
made, and the line. -/
theorem HasLineMore.numbered {index : Nat} {longer : List Char}
    (more : HasLineMore line index text longer) :
    ∃ first later, (numberFrom 1 (lines text)).map (renumber (.room index)) = first ++ later ∧
      numberFrom 1 (lines longer) = first ++ (index + 1, line) :: later := by
  have size : ((lines text).take index).length = index := List.length_take_of_le more.within
  refine ⟨numberFrom 1 ((lines text).take index),
    numberFrom (index + 2) ((lines text).drop index), ?_, ?_⟩
  · conv => lhs; rw [← List.take_append_drop index (lines text)]
    rw [numberFrom_append, List.map_append, size, renumber_room_first (by omega),
      renumber_room_later _ (by omega), Nat.add_comm 1]
  · rw [more.lines_eq, numberFrom_append, size, numberFrom, Nat.add_comm 1]

end TapeLab.Text
