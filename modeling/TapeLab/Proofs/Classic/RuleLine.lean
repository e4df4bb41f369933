import TapeLab.Classic.RuleGrammar
import TapeLab.Proofs.Text.Trimming

/-!
# Rule lines are read as their grammar says

`Classic.readRule_sound` and `Classic.readRule_complete` tie the reader of rule lines to
`IsRuleLine`, which knows nothing of splitting and trimming.  The reader splits at the
first arrow and at every comma; a padded field has neither (`Classic.IsField.padded`), so
what is between two separators is one field and its padding.
-/

namespace TapeLab.Classic

open TapeLab.Text

variable {text first second field : List Char}

/-- There is no arrow in a text. -/
def Arrowless (text : List Char) : Prop :=
  ∀ before after, text ≠ before ++ '-' :: '>' :: after

/-- An arrow begins a text or stands further on. -/
theorem arrowless_cons_iff {c : Char} {rest : List Char} :
    Arrowless (c :: rest) ↔ ¬(c = '-' ∧ rest.head? = some '>') ∧ Arrowless rest := by
  constructor
  · intro arrowless
    refine ⟨?_, fun before after cut => arrowless (c :: before) after (by rw [cut]; rfl)⟩
    rintro ⟨rfl, head⟩
    obtain ⟨after, rfl⟩ := List.head?_eq_some_iff.mp head
    exact arrowless [] after rfl
  · rintro ⟨noStart, later⟩ before after cut
    cases before with
    | nil =>
        obtain ⟨rfl, rfl⟩ := List.cons.inj cut
        exact noStart ⟨rfl, rfl⟩
    | cons d before => exact later before after (List.cons.inj cut).2

/-- The parts of a text without arrows have none. -/
theorem Arrowless.of_append (arrowless : Arrowless (first ++ second)) :
    Arrowless first ∧ Arrowless second := by
  constructor
  · rintro before after rfl
    exact arrowless before (after ++ second) (by simp)
  · rintro before after rfl
    exact arrowless (first ++ before) after (by simp)

/-- No arrow comes about where a text is put after another, unless its sign and its point
meet there. -/
theorem Arrowless.append (firstArrowless : Arrowless first) (secondArrowless : Arrowless second)
    (apart : ¬(first.getLast? = some '-' ∧ second.head? = some '>')) :
    Arrowless (first ++ second) := by
  induction first with
  | nil => exact secondArrowless
  | cons c rest inductionHypothesis =>
      obtain ⟨noStart, later⟩ := arrowless_cons_iff.mp firstArrowless
      cases rest with
      | nil => exact arrowless_cons_iff.mpr ⟨by simpa using apart, secondArrowless⟩
      | cons d rest =>
          have joined := inductionHypothesis later (by simpa using apart)
          exact arrowless_cons_iff.mpr ⟨by simpa using noStart, joined⟩

/-- A text without the sign of an arrow has no arrow. -/
theorem arrowless_of_notMem (absent : '-' ∉ text) : Arrowless text := by
  rintro before after rfl
  simp at absent

/-- The first arrow is where a text is split. -/
theorem splitArrow?_append (arrowless : Arrowless first) (rest : List Char) :
    splitArrow? (first ++ '-' :: '>' :: rest) = some (first, rest) := by
  induction first with
  | nil => rfl
  | cons c first inductionHypothesis =>
      obtain ⟨noStart, later⟩ := arrowless_cons_iff.mp arrowless
      have goesOn : (c == '-' && (first ++ '-' :: '>' :: rest).head? == some '>') = false := by
        cases first with
        | nil => simp
        | cons d first => simpa using noStart
      rw [List.cons_append, splitArrow?, goesOn, inductionHypothesis later]
      rfl

/-- A text without arrows is not split. -/
theorem splitArrow?_of_arrowless (arrowless : Arrowless text) : splitArrow? text = none := by
  induction text with
  | nil => rfl
  | cons c rest inductionHypothesis =>
      obtain ⟨noStart, later⟩ := arrowless_cons_iff.mp arrowless
      have goesOn : (c == '-' && rest.head? == some '>') = false := by simpa using noStart
      simp [splitArrow?, goesOn, inductionHypothesis later]

/-- Every text has no arrow or a first one. -/
theorem arrowless_or_exists_arrow (text : List Char) :
    Arrowless text ∨ ∃ before after, text = before ++ '-' :: '>' :: after ∧ Arrowless before := by
  induction text with
  | nil => exact .inl (arrowless_of_notMem List.not_mem_nil)
  | cons c rest inductionHypothesis =>
      by_cases begins : c = '-' ∧ rest.head? = some '>'
      · obtain ⟨rfl, head⟩ := begins
        obtain ⟨after, rfl⟩ := List.head?_eq_some_iff.mp head
        exact .inr ⟨[], after, rfl, arrowless_of_notMem List.not_mem_nil⟩
      · rcases inductionHypothesis with later | ⟨before, after, rfl, later⟩
        · exact .inl (arrowless_cons_iff.mpr ⟨begins, later⟩)
        · refine .inr ⟨c :: before, after, rfl, arrowless_cons_iff.mpr ⟨?_, later⟩⟩
          rintro ⟨rfl, head⟩
          exact begins ⟨rfl, by simp [head]⟩

/-- A text without commas is one field. -/
theorem fields_of_notMem (absent : ',' ∉ text) : fields text = [trim text] := by
  simp [fields, List.splitOn_eq_singleton absent]

/-- What stands before the first comma is the first field. -/
theorem fields_append (absent : ',' ∉ first) (rest : List Char) :
    fields (first ++ ',' :: rest) = trim first :: fields rest := by
  simp [fields, List.splitOn_append_cons_self_of_not_mem absent]

/-- Every text is one field or has a first comma. -/
theorem fields_cases (text : List Char) :
    (',' ∉ text ∧ fields text = [trim text]) ∨
      ∃ before rest, ',' ∉ before ∧ text = before ++ ',' :: rest ∧
        fields text = trim before :: fields rest := by
  by_cases member : ',' ∈ text
  · obtain ⟨before, rest, rfl, absent⟩ := List.eq_append_cons_of_mem member
    exact .inr ⟨before, rest, absent, rfl, fields_append absent rest⟩
  · exact .inl ⟨member, fields_of_notMem member⟩

/-- There is no text without a field. -/
theorem fields_ne_nil (text : List Char) : fields text ≠ [] := by
  simp [fields]

/-- A text of one field has no comma. -/
theorem of_fields_eq_singleton (one : fields text = [field]) : ',' ∉ text ∧ trim text = field := by
  rcases fields_cases text with ⟨absent, same⟩ | ⟨before, rest, _, _, same⟩
  · rw [same] at one
    exact ⟨absent, (List.cons.inj one).1⟩
  · rw [same] at one
    exact absurd (List.cons.inj one).2 (fields_ne_nil rest)

/-- A text of several fields has a comma after the first. -/
theorem of_fields_eq_cons {next : List Char} {others : List (List Char)}
    (several : fields text = field :: next :: others) :
    ∃ before rest, text = before ++ ',' :: rest ∧ ',' ∉ before ∧ trim before = field ∧
      fields rest = next :: others := by
  rcases fields_cases text with ⟨_, same⟩ | ⟨before, rest, absent, rfl, same⟩
  · rw [same] at several
    simp at several
  · rw [same] at several
    obtain ⟨found, later⟩ := List.cons.inj several
    exact ⟨before, rest, rfl, absent, found, later⟩

/-- What trimming leaves of a text without separators is a field. -/
theorem isField_trim (absent : ',' ∉ text) (arrowless : Arrowless text)
    (nonempty : trim text ≠ []) : IsField (trim text) := by
  obtain ⟨before, after, _, _, padded⟩ := padded_trim text
  refine ⟨nonempty, trim_trim text, ?_, ?_⟩
  · intro member
    exact absent (by rw [padded]; simp [member])
  · rw [padded] at arrowless
    exact arrowless.of_append.1.of_append.2

/-- Blanks have no separators. -/
theorem notMem_of_allBlank {c : Char} (visible : isBlank c = false) (blank : AllBlank text) :
    c ∉ text := fun member => by
  rw [blank c member] at visible
  cases visible

/-- A field has no separators, however it is padded, and is found in its padding. -/
theorem IsField.padded (isField : IsField field) (padding : Padded field text) :
    ',' ∉ text ∧ Arrowless text ∧ trim text = field := by
  refine ⟨?_, ?_, trim_eq_of_padded padding isField.trimmed⟩
  · obtain ⟨before, after, beforeBlank, afterBlank, rfl⟩ := padding
    have comma : isBlank ',' = false := by decide
    simp [notMem_of_allBlank comma beforeBlank, notMem_of_allBlank comma afterBlank,
      isField.noComma]
  · obtain ⟨before, after, beforeBlank, afterBlank, rfl⟩ := padding
    have noSign {blanks : List Char} (blank : AllBlank blanks) : '-' ∉ blanks :=
      notMem_of_allBlank (by decide) blank
    have noPoint {blanks : List Char} (blank : AllBlank blanks) : '>' ∉ blanks :=
      notMem_of_allBlank (by decide) blank
    have opened : Arrowless (before ++ field) := by
      apply (arrowless_of_notMem (noSign beforeBlank)).append isField.noArrow
      rintro ⟨sign, _⟩
      exact noSign beforeBlank (List.mem_of_getLast? sign)
    apply opened.append (arrowless_of_notMem (noSign afterBlank))
    rintro ⟨_, point⟩
    exact noPoint afterBlank (List.mem_of_head? point)

/-- A comma cannot be part of an arrow. -/
theorem Arrowless.comma (firstArrowless : Arrowless first) (secondArrowless : Arrowless second) :
    Arrowless (first ++ ',' :: second) := by
  apply firstArrowless.append
  · exact arrowless_cons_iff.mpr ⟨by simp, secondArrowless⟩
  · simp

/-- The text that names a move has no separators. -/
theorem NamesMove.plain {move : Move} (named : NamesMove move text) :
    ',' ∉ text ∧ Arrowless text ∧ Move.read? (String.ofList (trim text)) = some move := by
  obtain ⟨letter, ofLetter, padding⟩ := named
  have member : letter ∈ ['L', 'l', 'R', 'r', 'N', 'n'] := by
    simp only [Move.ofLetter?, Bool.or_eq_true, beq_iff_eq] at ofLetter
    grind
  have plain : ['L', 'l', 'R', 'r', 'N', 'n'].all (fun c =>
      c != ',' && !isBlank c && c != '-') = true := by decide
  obtain ⟨⟨noComma, visible⟩, noSign⟩ : (letter ≠ ',' ∧ isBlank letter = false) ∧ letter ≠ '-' := by
    simpa using List.all_eq_true.mp plain letter member
  have isField : IsField [letter] := by
    refine ⟨by simp, ?_, by simpa using noComma.symm, ?_⟩
    · exact trim_eq_self_iff.mpr ⟨by simpa using visible, by simpa using visible⟩
    · exact arrowless_of_notMem (by simpa using noSign.symm)
  obtain ⟨absent, arrowless, trimmed⟩ := isField.padded padding
  refine ⟨absent, arrowless, ?_⟩
  simp [Move.read?, trimmed, isField.trimmed, ofLetter]

/-- A word that is read as a move names it. -/
theorem namesMove_of_read? {move : Move} (found : Move.read? (String.ofList (trim text)) = some move) :
    NamesMove move text := by
  simp only [Move.read?, String.toList_ofList, trim_trim] at found
  split at found
  · next letter same => exact ⟨letter, found, same ▸ padded_trim text⟩
  · cases found

/-- Five fields make a rule exactly if four of them are there and the last names a move. -/
theorem ruleOfFields_eq_ok_iff {state read next write move : List Char} {line : Option Int}
    {rule : Rule} :
    ruleOfFields state read next write move line = .ok rule ↔
      (state ≠ [] ∧ read ≠ [] ∧ next ≠ [] ∧ write ≠ []) ∧
        ∃ named, Move.read? (String.ofList move) = some named ∧
          rule = { state := String.ofList state, read := String.ofList read,
                   next := String.ofList next, write := String.ofList write,
                   move := named, line } := by
  unfold ruleOfFields
  split
  · next missing =>
    simp only [Bool.or_eq_true, List.isEmpty_iff] at missing
    simp only [reduceCtorEq, false_iff]
    rintro ⟨⟨hasState, hasRead, hasNext, hasWrite⟩, _⟩
    simp_all
  · next complete =>
    simp only [Bool.or_eq_true, List.isEmpty_iff, not_or] at complete
    cases Move.read? (String.ofList move) with
    | none => simp
    | some named => simp [complete, eq_comm]

/-- Four fields without an arrow that are read as a rule are a rule line of the short form. -/
theorem isRuleLine_of_short {state read write move : List Char} {line : Option Int} {rule : Rule}
    (arrowless : Arrowless text) (four : fields text = [state, read, write, move])
    (found : ruleOfFields state read state write move line = .ok rule) :
    ∃ declared, IsRuleLine text declared ∧ rule = { declared with line } := by
  obtain ⟨stateText, rest, rfl, stateAbsent, rfl, three⟩ := of_fields_eq_cons four
  obtain ⟨readText, rest, rfl, readAbsent, rfl, two⟩ := of_fields_eq_cons three
  obtain ⟨writeText, moveText, rfl, writeAbsent, rfl, one⟩ := of_fields_eq_cons two
  obtain ⟨_, rfl⟩ := of_fields_eq_singleton one
  obtain ⟨⟨hasState, hasRead, _, hasWrite⟩, named, isMove, rfl⟩ := ruleOfFields_eq_ok_iff.mp found
  have parts := arrowless.of_append
  have readParts := (arrowless_cons_iff.mp parts.2).2.of_append
  have writeParts := (arrowless_cons_iff.mp readParts.2).2.of_append
  have isLine := IsRuleLine.short (isField_trim stateAbsent parts.1 hasState)
    (isField_trim readAbsent readParts.1 hasRead)
    (isField_trim writeAbsent writeParts.1 hasWrite) (padded_trim stateText)
    (padded_trim readText) (padded_trim writeText) (namesMove_of_read? isMove)
  simp only [List.append_assoc, List.cons_append] at isLine
  exact ⟨_, isLine, rfl⟩

/-- Two fields before and three behind the only arrow that are read as a rule are a rule line
of the long form. -/
theorem isRuleLine_of_arrow {left right state read next write move : List Char}
    {line : Option Int} {rule : Rule} (leftArrowless : Arrowless left)
    (rightArrowless : Arrowless right) (two : fields left = [state, read])
    (three : fields right = [next, write, move])
    (found : ruleOfFields state read next write move line = .ok rule) :
    ∃ declared, IsRuleLine (left ++ '-' :: '>' :: right) declared ∧
      rule = { declared with line } := by
  obtain ⟨stateText, readText, rfl, stateAbsent, rfl, leftOne⟩ := of_fields_eq_cons two
  obtain ⟨readAbsent, rfl⟩ := of_fields_eq_singleton leftOne
  obtain ⟨nextText, rest, rfl, nextAbsent, rfl, rightTwo⟩ := of_fields_eq_cons three
  obtain ⟨writeText, moveText, rfl, writeAbsent, rfl, rightOne⟩ := of_fields_eq_cons rightTwo
  obtain ⟨_, rfl⟩ := of_fields_eq_singleton rightOne
  obtain ⟨⟨hasState, hasRead, hasNext, hasWrite⟩, named, isMove, rfl⟩ :=
    ruleOfFields_eq_ok_iff.mp found
  have leftParts := leftArrowless.of_append
  have rightParts := rightArrowless.of_append
  have writeParts := (arrowless_cons_iff.mp rightParts.2).2.of_append
  have isLine := IsRuleLine.arrow (isField_trim stateAbsent leftParts.1 hasState)
    (isField_trim readAbsent (arrowless_cons_iff.mp leftParts.2).2 hasRead)
    (isField_trim nextAbsent rightParts.1 hasNext)
    (isField_trim writeAbsent writeParts.1 hasWrite) (padded_trim stateText)
    (padded_trim readText) (padded_trim nextText) (padded_trim writeText)
    (namesMove_of_read? isMove)
  simp only [List.append_assoc, List.cons_append] at isLine ⊢
  exact ⟨_, isLine, rfl⟩

/-- What is read as a rule is a rule line. -/
theorem readRule_sound {line : Option Int} {rule : Rule} (found : readRule text line = .ok rule) :
    ∃ declared, IsRuleLine text declared ∧ rule = { declared with line } := by
  unfold readRule at found
  rcases arrowless_or_exists_arrow text with arrowless | ⟨left, right, rfl, leftArrowless⟩
  · rw [splitArrow?_of_arrowless arrowless] at found
    simp only at found
    split at found
    · next four => exact isRuleLine_of_short arrowless four found
    · cases found
  · rw [splitArrow?_append leftArrowless] at found
    simp only at found
    split at found
    · cases found
    · next single =>
      have rightArrowless : Arrowless right := by
        rcases arrowless_or_exists_arrow right with arrowless | ⟨before, after, rfl, before_⟩
        · exact arrowless
        · simp [splitArrow?_append before_] at single
      split at found
      · next two three => exact isRuleLine_of_arrow leftArrowless rightArrowless two three found
      · cases found

/-- Every rule line is read as its rule. -/
theorem readRule_complete {declared : Rule} (isRuleLine : IsRuleLine text declared)
    (line : Option Int) : readRule text line = .ok { declared with line } := by
  cases isRuleLine with
  | arrow stateField readField nextField writeField statePadded readPadded nextPadded
      writePadded movePadded =>
      obtain ⟨stateAbsent, stateArrowless, rfl⟩ := stateField.padded statePadded
      obtain ⟨readAbsent, readArrowless, rfl⟩ := readField.padded readPadded
      obtain ⟨nextAbsent, nextArrowless, rfl⟩ := nextField.padded nextPadded
      obtain ⟨writeAbsent, writeArrowless, rfl⟩ := writeField.padded writePadded
      obtain ⟨moveAbsent, moveArrowless, isMove⟩ := movePadded.plain
      have leftArrowless := stateArrowless.comma readArrowless
      have rightArrowless := nextArrowless.comma (writeArrowless.comma moveArrowless)
      simp only [List.append_assoc, List.cons_append] at leftArrowless ⊢
      rw [readRule, ← List.cons_append, ← List.append_assoc, splitArrow?_append leftArrowless]
      simp only [splitArrow?_of_arrowless rightArrowless, Option.isSome_none, Bool.false_eq_true,
        if_false, fields_append stateAbsent, fields_of_notMem readAbsent,
        fields_append nextAbsent, fields_append writeAbsent, fields_of_notMem moveAbsent]
      exact ruleOfFields_eq_ok_iff.mpr
        ⟨⟨stateField.nonempty, readField.nonempty, nextField.nonempty, writeField.nonempty⟩,
          _, isMove, rfl⟩
  | short stateField readField writeField statePadded readPadded writePadded movePadded =>
      obtain ⟨stateAbsent, stateArrowless, rfl⟩ := stateField.padded statePadded
      obtain ⟨readAbsent, readArrowless, rfl⟩ := readField.padded readPadded
      obtain ⟨writeAbsent, writeArrowless, rfl⟩ := writeField.padded writePadded
      obtain ⟨moveAbsent, moveArrowless, isMove⟩ := movePadded.plain
      have arrowless :=
        stateArrowless.comma (readArrowless.comma (writeArrowless.comma moveArrowless))
      simp only [List.append_assoc, List.cons_append] at arrowless ⊢
      simp only [readRule, splitArrow?_of_arrowless arrowless, fields_append stateAbsent,
        fields_append readAbsent, fields_append writeAbsent, fields_of_notMem moveAbsent]
      exact ruleOfFields_eq_ok_iff.mpr
        ⟨⟨stateField.nonempty, readField.nonempty, stateField.nonempty, writeField.nonempty⟩,
          _, isMove, rfl⟩

end TapeLab.Classic
