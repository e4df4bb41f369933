import TapeLab.Proofs.Classic.Renumbering
import TapeLab.Proofs.Structured.Renumbering
import TapeLab.Proofs.Text.Trimming
import TapeLab.Source

/-!
# Comment lines

Both notations ignore a line that begins with a hash (`Classic.readLine_comment`,
`Structured.readContent_comment`), so in a given notation a source with one comment line more
declares the same machine, on lines that make room for it (`Source.readAs_commented`).  The
notation of a source is not settled line by line: a marker counts wherever it stands, and
stands in a text exactly if it stands in a line of it (`Source.hasMarker_eq_any_lines`).  A
comment thus changes the notation, and the machine with it, only by being the first place
where a marker stands (`Source.read_commented_iff`).
-/

namespace TapeLab

namespace Text

variable {piece text : List Char}

/-! ### Stretches of a text and of its lines -/

/-- The first line of a text goes on until a line ends. -/
theorem first_line_cons (c : Char) (rest : List Char) :
    (linesFrom false (c :: rest)).headD [] =
      if isLineBreak c then [] else c :: (linesFrom false rest).headD [] := by
  simp only [linesFrom, Bool.false_and, Bool.false_eq_true, if_false]
  split
  · rfl
  · cases linesFrom false rest <;> rfl

/-- What begins a text without ending a line begins its first line. -/
theorem prefix_iff_first_line (unbroken : Unbroken piece) :
    piece <+: text ↔ piece <+: (linesFrom false text).headD [] := by
  induction piece generalizing text with
  | nil => simp
  | cons d piece inductionHypothesis =>
      obtain ⟨headUnbroken, tailUnbroken⟩ := unbroken_cons.mp unbroken
      cases text with
      | nil => simp [linesFrom]
      | cons c rest =>
          rw [first_line_cons, List.cons_prefix_cons]
          split
          · next ends =>
            simp only [List.prefix_nil, reduceCtorEq, iff_false]
            rintro ⟨rfl, -⟩
            exact absurd ends (by simp [headUnbroken])
          · rw [List.cons_prefix_cons, inductionHypothesis tailUnbroken]

/-- Stretches of the lines after a character was put in front of the first one. -/
theorem exists_infix_pushToFirst_iff (nonempty : piece ≠ []) (c : Char)
    (parts : List (List Char)) :
    (∃ part ∈ pushToFirst c parts, piece <:+: part) ↔
      piece <+: c :: parts.headD [] ∨ ∃ part ∈ parts, piece <:+: part := by
  cases parts with
  | nil => simp [pushToFirst, List.infix_cons_iff, nonempty]
  | cons first others => simp [pushToFirst, List.infix_cons_iff, or_assoc]

/-- What ends no line stands in a text exactly if it stands in a line of it. -/
theorem exists_infix_linesFrom_iff (unbroken : Unbroken piece) (nonempty : piece ≠ [])
    (afterReturn : Bool) :
    (∃ part ∈ linesFrom afterReturn text, piece <:+: part) ↔ piece <:+: text := by
  induction text generalizing afterReturn with
  | nil => simp [linesFrom, nonempty]
  | cons c rest inductionHypothesis =>
      rw [List.infix_cons_iff]
      have skipped (ends : isLineBreak c = true) : ¬piece <+: c :: rest := by
        obtain ⟨d, letters, rfl⟩ := List.exists_cons_of_ne_nil nonempty
        rw [List.cons_prefix_cons]
        rintro ⟨rfl, -⟩
        exact absurd ends (by simp [unbroken d List.mem_cons_self])
      unfold linesFrom
      split
      · next feed =>
        have ends : isLineBreak c = true := by
          obtain ⟨-, same⟩ := Bool.and_eq_true_iff.mp feed
          rw [beq_iff_eq.mp same]
          decide
        rw [inductionHypothesis, or_iff_right (skipped ends)]
      · split
        · next ends =>
          rw [or_iff_right (skipped ends), ← inductionHypothesis (c == '\r')]
          simp [nonempty]
        · next goesOn =>
          have first : (linesFrom false (c :: rest)).headD [] =
              c :: (linesFrom false rest).headD [] := by
            rw [first_line_cons, if_neg goesOn]
          have begins : piece <+: c :: rest ↔ piece <+: (linesFrom false (c :: rest)).headD [] :=
            prefix_iff_first_line unbroken
          rw [exists_infix_pushToFirst_iff nonempty, inductionHypothesis, begins, first]

end Text

open TapeLab.Text

/-- A line that begins with a hash is ignored. -/
theorem Classic.readLine_comment (number : Nat) (comment : List Char) :
    readLine number ('#' :: comment) = .ignored := by
  obtain ⟨later, trimmed⟩ := exists_trim_cons (by decide : isBlank '#' = false) comment
  rw [readLine, trimmed]
  rfl

/-- A line that begins with a hash is ignored, whichever block is open. -/
theorem Structured.readContent_comment (current : Option StateName) (comment : List Char) :
    readContent current (stripComment (trim ('#' :: comment))) = .ignored := by
  obtain ⟨later, trimmed⟩ := exists_trim_cons (by decide : isBlank '#' = false) comment
  rw [trimmed]
  rfl

namespace Source

variable {source commented : String} {piece text line comment : List Char} {index : Nat}

/-- In a given notation a comment line changes nothing but the numbers of the lines behind it. -/
theorem readAs_commented (dialect : Dialect)
    (more : HasLineMore ('#' :: comment) index source.toList commented.toList) :
    readAs dialect commented = (readAs dialect source).renumbered (.room index) := by
  cases dialect with
  | classic =>
      exact Classic.read_of_hasLineMore more fun number => Classic.readLine_comment number comment
  | structured =>
      exact Structured.read_of_hasLineMore more fun current =>
        Structured.readContent_comment current comment

/-- A machine is of the notation that its source was read in. -/
theorem dialect_readAs (dialect : Dialect) (source : String) :
    (readAs dialect source).dialect = dialect := by
  cases dialect <;> rfl

/-! ### Where a marker stands -/

/-- What occurs in a text is a stretch of it. -/
theorem occursIn_iff : occursIn piece text = true ↔ piece <:+: text := by
  induction text with
  | nil => simp [occursIn, List.isEmpty_iff]
  | cons c rest inductionHypothesis =>
      rw [occursIn, Bool.or_eq_true, List.isPrefixOf_iff_prefix, inductionHypothesis,
        List.infix_cons_iff]

/-- A text has a marker of the structured notation in it. -/
def hasMarker (text : List Char) : Bool :=
  structuredMarkers.any fun marker => occursIn marker.toList text

/-- The notation of a source is settled by its markers. -/
theorem dialectOf_eq (source : String) :
    dialectOf source = if hasMarker source.toList then .structured else .classic :=
  rfl

/-- A marker stands in a text exactly if it stands in a line of it. -/
theorem hasMarker_eq_any_lines (text : List Char) : hasMarker text = (lines text).any hasMarker := by
  have markers : ∀ marker ∈ structuredMarkers, Unbroken marker.toList ∧ marker.toList ≠ [] := by
    decide
  rw [Bool.eq_iff_iff]
  simp only [hasMarker, List.any_eq_true, occursIn_iff]
  constructor
  · rintro ⟨marker, known, stands⟩
    obtain ⟨unbroken, nonempty⟩ := markers marker known
    obtain ⟨part, member, inside⟩ := (exists_infix_linesFrom_iff unbroken nonempty false).mpr stands
    exact ⟨part, member, marker, known, inside⟩
  · rintro ⟨part, member, marker, known, inside⟩
    obtain ⟨unbroken, nonempty⟩ := markers marker known
    exact ⟨marker, known,
      (exists_infix_linesFrom_iff unbroken nonempty false).mp ⟨part, member, inside⟩⟩

/-- One line more has the markers of the text and its own. -/
theorem hasMarker_of_hasLineMore {longer : List Char}
    (more : HasLineMore line index text longer) :
    hasMarker longer = (hasMarker text || hasMarker line) := by
  rw [hasMarker_eq_any_lines longer, more.lines_eq, hasMarker_eq_any_lines text]
  conv => rhs; lhs; rw [← List.take_append_drop index (lines text)]
  simp only [List.any_append, List.any_cons, Bool.or_assoc, Bool.or_comm (hasMarker line)]

/-- The hash of a comment belongs to no marker. -/
theorem hasMarker_comment (comment : List Char) : hasMarker ('#' :: comment) = hasMarker comment := by
  have begins : ∀ marker ∈ structuredMarkers, marker.toList.isPrefixOf ('#' :: comment) = false := by
    simp [structuredMarkers, List.isPrefixOf]
  rw [Bool.eq_iff_iff]
  simp only [hasMarker, List.any_eq_true, occursIn]
  refine exists_congr fun marker => and_congr_right fun known => ?_
  rw [begins marker known, Bool.false_or]

/-- A comment line leaves the machine as it is, but for the numbers of the lines behind it,
exactly if it is not the first place where a marker stands. -/
theorem read_commented_iff
    (inserted : HasLineMore ('#' :: comment) index source.toList commented.toList) :
    read commented = (read source).renumbered (.room index) ↔
      hasMarker source.toList = true ∨ hasMarker comment = false := by
  have sameNotation : dialectOf commented = dialectOf source ↔
      hasMarker source.toList = true ∨ hasMarker comment = false := by
    rw [dialectOf_eq, dialectOf_eq, hasMarker_of_hasLineMore inserted, hasMarker_comment]
    cases hasMarker source.toList <;> cases hasMarker comment <;> simp
  rw [← sameNotation]
  constructor
  · intro same
    have notations := congrArg Definition.dialect same
    simpa only [read, Option.getD_none, Definition.renumbered, dialect_readAs] using notations
  · intro same
    simp only [read, Option.getD_none]
    rw [same, readAs_commented _ inserted]

/-- A comment between two lines of a classic source only moves the second one. -/
theorem read_commented_between :
    HasLineMore "# flip it".toList 1 "initial tape: 01\nq0, 0 -> q1, 1, R".toList
        "initial tape: 01\n# flip it\nq0, 0 -> q1, 1, R".toList ∧
      read "initial tape: 01\n# flip it\nq0, 0 -> q1, 1, R" =
        (read "initial tape: 01\nq0, 0 -> q1, 1, R").renumbered (.room 1) := by
  have ends : EndsLine "initial tape: 01\n".toList "q0, 0 -> q1, 1, R".toList :=
    .inr ⟨"initial tape: 01".toList, '\n', by decide, by decide, by decide⟩
  have between : HasLineMore ('#' :: " flip it".toList) 1
      "initial tape: 01\nq0, 0 -> q1, 1, R".toList
      "initial tape: 01\n# flip it\nq0, 0 -> q1, 1, R".toList :=
    hasLineMore_between ends (by decide) (by decide)
  exact ⟨between, (read_commented_iff between).mpr (.inr (by decide))⟩

/-- A comment that says `table:` makes a classic source a structured one. -/
theorem read_commented_marked :
    HasLineMore ('#' :: "table:".toList) 0 "q0, 0 -> q1, 1, R".toList
        "#table:\nq0, 0 -> q1, 1, R".toList ∧
      (read "q0, 0 -> q1, 1, R").dialect = .classic ∧
      (read "#table:\nq0, 0 -> q1, 1, R").dialect = .structured ∧
      read "#table:\nq0, 0 -> q1, 1, R" ≠ (read "q0, 0 -> q1, 1, R").renumbered (.room 0) := by
  have classic : (read "q0, 0 -> q1, 1, R").dialect = .classic := dialect_readAs _ _
  have structured : (read "#table:\nq0, 0 -> q1, 1, R").dialect = .structured :=
    dialect_readAs _ _
  refine ⟨⟨by decide, by decide⟩, classic, structured, fun same => ?_⟩
  have notations := congrArg Definition.dialect same
  rw [structured, Definition.renumbered, classic] at notations
  cases notations

end Source

end TapeLab
