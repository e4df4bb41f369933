import TapeLab.Text.Blank
import TapeLab.Text.Line

/-!
# Lines put together and cut apart

Lines without boundaries, each ended by a line feed, are the lines of the text that they
make up (`Text.lines_flatMap`), and no line of any text has a boundary in it
(`Text.unbroken_of_mem_lines`).
-/

namespace TapeLab.Text

/-- Texts without boundaries make up one. -/
theorem unbroken_append {first second : List Char} :
    Unbroken (first ++ second) ↔ Unbroken first ∧ Unbroken second :=
  List.forall_mem_append

/-- A text goes on with a character that ends no line. -/
theorem unbroken_cons {c : Char} {text : List Char} :
    Unbroken (c :: text) ↔ isLineBreak c = false ∧ Unbroken text :=
  List.forall_mem_cons

/-- Texts in which no line ends make up one. -/
theorem Unbroken.append {first second : String} (firstWhole : Unbroken first.toList)
    (secondWhole : Unbroken second.toList) : Unbroken (first ++ second).toList := by
  rw [String.toList_append]
  exact unbroken_append.mpr ⟨firstWhole, secondWhole⟩

/-- A line boundary is a blank. -/
theorem isBlank_of_isLineBreak {c : Char} (breaks : isLineBreak c = true) : isBlank c = true := by
  simp only [isLineBreak, Bool.or_eq_true, beq_iff_eq] at breaks
  rcases breaks with ((((((((rfl | rfl) | rfl) | rfl) | rfl) | rfl) | rfl) | rfl) | rfl) | rfl <;>
    decide

/-- No line ends in a text without blanks. -/
theorem unbroken_of_visible {text : List Char} (visible : ∀ c ∈ text, isBlank c = false) :
    Unbroken text := fun c member => by
  rw [← Bool.not_eq_true]
  intro breaks
  exact Bool.false_ne_true ((visible c member).symm.trans (isBlank_of_isLineBreak breaks))

/-- The first line of a text is what stands before the first line feed. -/
theorem lines_append_feed {line : List Char} (unbroken : Unbroken line) (rest : List Char) :
    lines (line ++ '\n' :: rest) = line :: lines rest := by
  induction line with
  | nil => rfl
  | cons c line inductionHypothesis =>
      have goesOn : isLineBreak c = false := unbroken c List.mem_cons_self
      have later := inductionHypothesis fun d member => unbroken d (List.mem_cons_of_mem c member)
      simp only [lines] at later
      simp [lines, linesFrom, goesOn, later, pushToFirst]

/-- Lines that are each ended by a line feed are cut apart again. -/
theorem lines_flatMap {parts : List (List Char)} (unbroken : ∀ part ∈ parts, Unbroken part) :
    lines (parts.flatMap fun part => part ++ ['\n']) = parts := by
  induction parts with
  | nil => rfl
  | cons part parts inductionHypothesis =>
      have later := inductionHypothesis fun other member =>
        unbroken other (List.mem_cons_of_mem part member)
      rw [List.flatMap_cons, List.append_assoc, List.singleton_append,
        lines_append_feed (unbroken part List.mem_cons_self), later]

/-- Lines that are joined by line feeds are cut apart again, whether the last one is ended
or not. -/
theorem lines_intercalate {parts : List (List Char)} {ending : List Char} (nonempty : parts ≠ [])
    (unbroken : ∀ part ∈ parts, Unbroken part ∧ part ≠ [])
    (ended : ending = [] ∨ ending = ['\n']) :
    lines (['\n'].intercalate parts ++ ending) = parts := by
  induction parts with
  | nil => exact absurd rfl nonempty
  | cons part parts inductionHypothesis =>
      obtain ⟨whole, visible⟩ := unbroken part List.mem_cons_self
      cases parts with
      | nil =>
          rw [List.intercalate_singleton]
          rcases ended with rfl | rfl
          · simpa using lines_of_no_break whole visible
          · exact lines_append_feed whole []
      | cons next parts =>
          have later := inductionHypothesis (by simp) fun other member =>
            unbroken other (List.mem_cons_of_mem part member)
          rw [List.intercalate_cons_cons, List.append_assoc, List.append_assoc,
            List.singleton_append, lines_append_feed whole, later]

/-- No line that a text is cut into has a boundary in it. -/
theorem unbroken_of_mem_linesFrom {afterReturn : Bool} {text line : List Char}
    (member : line ∈ linesFrom afterReturn text) : Unbroken line := by
  induction text generalizing afterReturn line with
  | nil => simp [linesFrom] at member
  | cons c rest inductionHypothesis =>
      unfold linesFrom at member
      split at member
      · exact inductionHypothesis member
      · split at member
        · rcases List.mem_cons.mp member with rfl | later
          · simp [Unbroken]
          · exact inductionHypothesis later
        · next goesOn =>
          cases cut : linesFrom false rest with
          | nil =>
              simp only [cut, pushToFirst, List.mem_singleton] at member
              simpa [member, Unbroken] using goesOn
          | cons first others =>
              simp only [cut, pushToFirst, List.mem_cons] at member
              rcases member with rfl | later
              · have firstUnbroken : Unbroken first :=
                  inductionHypothesis (cut ▸ List.mem_cons_self)
                simpa [Unbroken] using And.intro (by simpa using goesOn) firstUnbroken
              · exact inductionHypothesis (cut ▸ List.mem_cons_of_mem first later)

/-- No line of a text has a boundary in it. -/
theorem unbroken_of_mem_lines {text line : List Char} (member : line ∈ lines text) :
    Unbroken line :=
  unbroken_of_mem_linesFrom member

/-- Numbering adds no line. -/
theorem mem_of_mem_numberFrom {α : Type} {number start : Nat} {line : α} {parts : List α}
    (member : (number, line) ∈ numberFrom start parts) : line ∈ parts := by
  induction parts generalizing start with
  | nil => simp [numberFrom] at member
  | cons part parts inductionHypothesis =>
      rcases List.mem_cons.mp member with same | later
      · cases same
        exact List.mem_cons_self
      · exact List.mem_cons_of_mem part (inductionHypothesis later)

/-- Lines are numbered whatever stands on them. -/
theorem numberFrom_map {α β : Type} (start : Nat) (parts : List α) (f : α → β) :
    numberFrom start (parts.map f) = (numberFrom start parts).map fun line => (line.1, f line.2) := by
  induction parts generalizing start with
  | nil => rfl
  | cons part parts inductionHypothesis => simp [numberFrom, inductionHypothesis]

/-- The number of a line is its place, counted from the first number. -/
theorem map_numberFrom {α β : Type} (start : Nat) (parts : List α) (f : Nat × α → β) :
    (numberFrom start parts).map f = parts.mapIdx fun index part => f (start + index, part) := by
  induction parts generalizing start with
  | nil => rfl
  | cons part parts inductionHypothesis =>
      simp [numberFrom, inductionHypothesis, List.mapIdx_cons, Nat.add_right_comm start, Nat.add_assoc]

/-- Without their numbers the lines are what they were. -/
theorem map_snd_numberFrom {α : Type} (start : Nat) (parts : List α) :
    (numberFrom start parts).map Prod.snd = parts := by
  induction parts generalizing start with
  | nil => rfl
  | cons part parts inductionHypothesis => rw [numberFrom, List.map_cons, inductionHypothesis]

/-- A line stands where it stood, with its place counted from the first number. -/
theorem getElem?_numberFrom {α : Type} (start : Nat) (parts : List α) (index : Nat) :
    (numberFrom start parts)[index]? = parts[index]?.map fun part => (start + index, part) := by
  have numbered := map_numberFrom start parts id
  rw [List.map_id] at numbered
  rw [numbered, List.getElem?_mapIdx]
  rfl

/-- What a numbered line is. -/
theorem mem_numberFrom_iff {α : Type} {start number : Nat} {part : α} {parts : List α} :
    (number, part) ∈ numberFrom start parts ↔
      ∃ index, parts[index]? = some part ∧ number = start + index := by
  simp only [List.mem_iff_getElem?, getElem?_numberFrom, Option.map_eq_some_iff, Prod.mk.injEq]
  constructor
  · rintro ⟨index, found, stands, rfl, rfl⟩
    exact ⟨index, stands, rfl⟩
  · rintro ⟨index, stands, rfl⟩
    exact ⟨index, part, stands, rfl, rfl⟩

/-- Later lines have greater numbers. -/
theorem pairwise_numberFrom {α : Type} (start : Nat) (parts : List α) :
    (numberFrom start parts).Pairwise fun before after => before.1 < after.1 := by
  induction parts generalizing start with
  | nil => exact List.Pairwise.nil
  | cons part parts inductionHypothesis =>
      refine List.Pairwise.cons ?_ (inductionHypothesis (start + 1))
      rintro ⟨number, later⟩ member
      obtain ⟨index, -, rfl⟩ := mem_numberFrom_iff.mp member
      dsimp only
      omega

/-- A numbered line is the only one with its number. -/
theorem filter_numberFrom {α : Type} {start number : Nat} {part : α} {parts : List α}
    (member : (number, part) ∈ numberFrom start parts) :
    ((numberFrom start parts).filter fun other => other.1 == number) = [(number, part)] := by
  induction parts generalizing start with
  | nil => cases member
  | cons first parts inductionHypothesis =>
      rcases List.mem_cons.mp member with same | later
      · obtain ⟨rfl, rfl⟩ := Prod.mk.inj same
        have others : ((numberFrom (number + 1) parts).filter fun other => other.1 == number) =
            [] := by
          refine List.filter_eq_nil_iff.mpr fun other isOther => ?_
          obtain ⟨index, -, numbered⟩ := mem_numberFrom_iff.mp isOther
          simp only [beq_iff_eq]
          omega
        rw [numberFrom, List.filter_cons_of_pos (by simp), others]
      · obtain ⟨index, -, numbered⟩ := mem_numberFrom_iff.mp later
        have before : (start == number) = false := beq_false_of_ne (by omega)
        simp only [numberFrom, List.filter_cons, before, Bool.false_eq_true, if_false]
        exact inductionHypothesis later

/-- There are as many numbered lines as lines. -/
theorem length_numberFrom {α : Type} (start : Nat) (parts : List α) :
    (numberFrom start parts).length = parts.length := by
  rw [← List.length_map id, map_numberFrom, List.length_mapIdx]

end TapeLab.Text
