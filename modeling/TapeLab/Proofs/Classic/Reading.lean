import TapeLab.Classic.Printable
import TapeLab.Proofs.Classic.Comment
import TapeLab.Proofs.Text.Lines

/-!
# Which lines declare rules

A line declares a rule exactly if it is not ignored, what is left of it after its comment
does not set the tape, and that is a rule line (`Classic.readTrimmed_eq_rule_iff`).  Every
rule of a source comes from one of its lines (`Classic.exists_line_of_mem_rules`).
-/

namespace TapeLab.Classic

open TapeLab.Text

variable {text : List Char}

/-- The first letter of a directive's words is read from the first character. -/
theorem afterWords?_cons_eq_some_iff {letter : Char} {letters rest : List Char} :
    afterWords? (letter :: letters) text = some rest ↔
      ∃ c more, text = c :: more ∧ matchesLetter letter c = true ∧
        afterWords? letters more = some rest := by
  cases text with
  | nil => simp [afterWords?]
  | cons c more =>
      constructor
      · intro found
        exact ⟨c, more, rfl, by simpa [afterWords?] using found⟩
      · rintro ⟨_, _, same, matched, later⟩
        obtain ⟨rfl, rfl⟩ := List.cons.inj same
        simp [afterWords?, matched, later]

/-- The words of a directive are read letter by letter. -/
theorem afterWords?_eq_some_iff {letters rest : List Char} :
    afterWords? letters text = some rest ↔
      ∃ opening, text = opening ++ rest ∧ opening.length = letters.length ∧
        ∀ pair ∈ letters.zip opening, matchesLetter pair.1 pair.2 = true := by
  induction letters generalizing text with
  | nil => simp [afterWords?]
  | cons letter letters inductionHypothesis =>
      rw [afterWords?_cons_eq_some_iff]
      constructor
      · rintro ⟨c, more, rfl, matched, later⟩
        obtain ⟨opening, rfl, sameLength, letterwise⟩ := inductionHypothesis.mp later
        exact ⟨c :: opening, rfl, by simp [sameLength], by simpa [matched] using letterwise⟩
      · rintro ⟨opening, rfl, sameLength, letterwise⟩
        obtain ⟨c, opening, rfl⟩ := List.exists_cons_of_length_eq_add_one sameLength
        have later := inductionHypothesis.mpr ⟨opening, rfl, by simpa using sameLength,
          fun pair member => letterwise pair (List.mem_cons_of_mem _ member)⟩
        exact ⟨c, opening ++ rest, rfl, letterwise (letter, c) List.mem_cons_self, later⟩

/-- A text begins with the words of the directive exactly if they are found there. -/
theorem opensDirective_iff :
    OpensDirective text ↔ ∃ rest, afterWords? tapeDirective text = some rest := by
  simp only [OpensDirective, afterWords?_eq_some_iff]
  exact exists_comm

/-- Every character of a directive's words is matched by a letter. -/
theorem exists_mem_zip {letters opening : List Char} {c : Char}
    (sameLength : opening.length = letters.length) (member : c ∈ opening) :
    ∃ letter ∈ letters, (letter, c) ∈ letters.zip opening := by
  obtain ⟨index, inOpening, rfl⟩ := List.mem_iff_getElem.mp member
  have inLetters : index < letters.length := sameLength ▸ inOpening
  refine ⟨letters[index], List.getElem_mem inLetters, List.mem_iff_getElem.mpr ?_⟩
  exact ⟨index, by rw [List.length_zip]; omega, by simp⟩

/-- The words of the directive have no comma. -/
theorem OpensDirective.of_append_comma {more : List Char}
    (opens : OpensDirective (text ++ ',' :: more)) : OpensDirective text := by
  obtain ⟨opening, rest, cut, sameLength, letterwise⟩ := opens
  have noComma : ',' ∉ opening := by
    intro member
    obtain ⟨letter, isLetter, paired⟩ := exists_mem_zip sameLength member
    have noLetter : tapeDirective.all (fun letter => !matchesLetter letter ',') = true := by decide
    have differs : matchesLetter letter ',' = false := by
      simpa using List.all_eq_true.mp noLetter letter isLetter
    simpa [differs] using letterwise _ paired
  rcases List.append_eq_append_iff.mp cut with ⟨extra, rfl, tail⟩ | ⟨extra, rfl, _⟩
  · cases extra with
    | nil => exact ⟨text, [], by simp, by simpa using sameLength, by simpa using letterwise⟩
    | cons c extra =>
        obtain ⟨rfl, -⟩ := List.cons.inj tail
        simp at noComma
  · exact ⟨opening, extra, rfl, sameLength, letterwise⟩

/-- A line without the words of the directive does not set the tape. -/
theorem tapeCells?_eq_none (closed : ¬OpensDirective text) : tapeCells? text = none := by
  rw [opensDirective_iff, not_exists] at closed
  have unread : afterWords? tapeDirective text = none := Option.eq_none_iff_forall_ne_some.mpr closed
  simp [tapeCells?, unread]

/-- A line that goes on after the words of the directive sets the tape. -/
theorem tapeCells?_ne_none {c : Char} {more : List Char} (opens : OpensDirective text) :
    tapeCells? (text ++ c :: more) ≠ none := by
  obtain ⟨opening, rest, rfl, found⟩ := opens
  have read : afterWords? tapeDirective (opening ++ rest ++ c :: more) = some (rest ++ c :: more) :=
    afterWords?_eq_some_iff.mpr ⟨opening, by simp, found⟩
  rw [tapeCells?, read]
  simp

/-- When a line that was freed of the blanks around it declares a rule. -/
theorem readTrimmed_eq_rule_iff {number : Nat} {rule : Rule} :
    readTrimmed number text = .rule rule ↔
      text ≠ [] ∧ text.head? ≠ some '#' ∧ tapeCells? (stripComment text) = none ∧
        readRule (stripComment text) (some number) = .ok rule := by
  unfold readTrimmed
  split
  · next ignored =>
    simp only [Bool.or_eq_true, List.isEmpty_iff, beq_iff_eq] at ignored
    simp only [reduceCtorEq, false_iff]
    rintro ⟨nonempty, noHash, _⟩
    exact ignored.elim nonempty noHash
  · next counts =>
    simp only [Bool.or_eq_true, List.isEmpty_iff, beq_iff_eq, not_or] at counts
    dsimp only
    cases cells : tapeCells? (stripComment text) with
    | some tape => simp
    | none =>
        cases read : readRule (stripComment text) (some number) with
        | error fault => simp
        | ok declared => simp [counts]

/-- Every rule of a source comes from one of its lines. -/
theorem exists_line_of_mem_rules {source : String} {rule : Rule}
    (member : rule ∈ (read source).rules) :
    ∃ number line, line ∈ lines source.toList ∧ readLine number line = .rule rule := by
  obtain ⟨reading, isReading, declares⟩ := List.mem_filterMap.mp member
  obtain ⟨⟨number, line⟩, numbered, rfl⟩ := List.mem_map.mp isReading
  refine ⟨number, line, mem_of_mem_numberFrom numbered, ?_⟩
  cases found : readLine number line <;> simp_all [Reading.rule?]

/-- The rules that a line can declare write. -/
theorem IsRuleLine.bare {declared : Rule} (isRuleLine : IsRuleLine text declared) :
    declared.bare = declared := by
  cases isRuleLine <;> rfl

/-- The rest of a line after its comment was cut begins as the line does. -/
theorem head?_stripComment {c : Char} (trimmed : trim text = text)
    (first : (stripComment text).head? = some c) : text.head? = some c := by
  obtain ⟨after, cut⟩ : ∃ after, text = beforeComment true text ++ after := by
    rcases beforeComment_cases true text with whole | ⟨after, cut⟩
    · exact ⟨[], by simp [whole]⟩
    · exact ⟨'#' :: after, cut⟩
  obtain ⟨leading, trailing, leadingBlank, _, padded⟩ := padded_trim (beforeComment true text)
  cases leading with
  | nil =>
      obtain ⟨rest, same⟩ := List.head?_eq_some_iff.mp first
      rw [cut, padded, ← stripComment, same]
      rfl
  | cons d leading =>
      have begins : text.head? = some d := by
        rw [cut, padded]
        rfl
      have visible := (trim_eq_self_iff.mp trimmed).1 d begins
      simp [leadingBlank d List.mem_cons_self] at visible

/-- Nothing new stands in what is left of a line. -/
theorem mem_of_mem_stripComment {c : Char} (member : c ∈ stripComment text) : c ∈ text := by
  have before : c ∈ beforeComment true text := mem_of_mem_trim member
  rcases beforeComment_cases true text with whole | ⟨after, cut⟩
  · rwa [whole] at before
  · rw [cut]
    exact List.mem_append_left _ before

/-- What is left of a line that declares a rule: a rule line, whole and without blanks
around it, that neither is ignored nor sets the tape. -/
structure Declares (content : List Char) (declared : Rule) : Prop where
  isRuleLine : IsRuleLine content declared
  whole : beforeComment true content = content
  trimmed : trim content = content
  noHash : content.head? ≠ some '#'
  noTape : tapeCells? content = none

/-- A rule that is read from a line was declared by what is left of it. -/
theorem declares_of_readLine {number : Nat} {rule : Rule} (found : readLine number text = .rule rule) :
    Declares (stripComment (trim text)) rule.bare ∧
      rule = { rule.bare with line := some (number : Int) } := by
  obtain ⟨_, noHash, noTape, read⟩ := readTrimmed_eq_rule_iff.mp found
  obtain ⟨declared, isRuleLine, rfl⟩ := readRule_sound read
  have same : Rule.bare { declared with line := some (number : Int) } = declared :=
    isRuleLine.bare
  rw [same]
  refine ⟨⟨isRuleLine, beforeComment_stripComment _, trim_trim _, fun first => ?_, noTape⟩, rfl⟩
  exact noHash (head?_stripComment (trim_trim text) first)

end TapeLab.Classic
