import TapeLab.Proofs.Classic.Reading

/-!
# The fields of a declared rule

What reading a line says about the fields of its rule.  They stand in what is left of the
line (`Classic.IsRuleLine.standsIn`), which opens no comment, so a hash after a blank can
only be the last character of a field.  All that is missing for the rule to be printable
is that no field begins with a hash and goes on (`Classic.Declares.printable_iff`).
-/

namespace TapeLab.Classic

open TapeLab.Text

variable {content field : List Char} {declared rule : Rule}

/-- Each part of a rule but its move is a field. -/
structure HasFields (rule : Rule) : Prop where
  state : IsField rule.state.toList
  read : IsField rule.read.toList
  next : IsField rule.next.toList
  write : IsField rule.write.toList

/-- The fields of a rule are those it says in the classic notation. -/
theorem hasFields_bare : HasFields rule.bare ↔ HasFields rule :=
  ⟨fun fields => { fields with }, fun fields => { fields with }⟩

/-- A rule is printable if what it says in the classic notation is. -/
theorem printableRule_bare : PrintableRule rule.bare ↔ PrintableRule rule :=
  ⟨fun printable => { printable with }, fun printable => { printable with }⟩

/-- The parts of a declared rule are fields. -/
theorem IsRuleLine.hasFields (isRuleLine : IsRuleLine content declared) : HasFields declared := by
  cases isRuleLine with
  | arrow stateField readField nextField writeField =>
      constructor <;> simpa
  | short stateField readField writeField =>
      constructor <;> simpa

/-- A field stands in a line, and what follows it cannot complete an arrow. -/
def StandsIn (field content : List Char) : Prop :=
  ∃ leading trailing, content = leading ++ (field ++ trailing) ∧ trailing.head? ≠ some '>'

/-- A padded field stands at the beginning of a line if no arrow is completed after it. -/
theorem standsIn_padded {padding : List Char} {c : Char} (padded : Padded field padding)
    (apart : c ≠ '>') (rest : List Char) : StandsIn field (padding ++ c :: rest) := by
  obtain ⟨before, after, _, afterBlank, rfl⟩ := padded
  refine ⟨before, after ++ c :: rest, by simp, fun point => ?_⟩
  cases after with
  | nil => exact apart (by simpa using point)
  | cons d after =>
      have same : d = '>' := by simpa using point
      have blank : isBlank d = true := afterBlank d List.mem_cons_self
      rw [same] at blank
      exact absurd blank (by decide)

/-- A field stands in every line that ends as its line does. -/
theorem StandsIn.after (stands : StandsIn field content) (front : List Char) :
    StandsIn field (front ++ content) := by
  obtain ⟨leading, trailing, rfl, apart⟩ := stands
  exact ⟨front ++ leading, trailing, by simp, apart⟩

/-- A field stands in a line that is longer by its first character. -/
theorem StandsIn.cons {c : Char} (stands : StandsIn field content) : StandsIn field (c :: content) :=
  stands.after [c]

/-- The fields of a declared rule stand in its line. -/
theorem IsRuleLine.standsIn (isRuleLine : IsRuleLine content declared) :
    StandsIn declared.state.toList content ∧ StandsIn declared.read.toList content ∧
      StandsIn declared.next.toList content ∧ StandsIn declared.write.toList content := by
  cases isRuleLine with
  | arrow _ _ _ _ statePadded readPadded nextPadded writePadded =>
      simp only [List.append_assoc, List.cons_append, String.toList_ofList]
      exact ⟨standsIn_padded statePadded (by decide) _,
        (standsIn_padded readPadded (by decide) _).cons.after _,
        ((standsIn_padded nextPadded (by decide) _).cons.cons.after _).cons.after _,
        (((standsIn_padded writePadded (by decide) _).cons.after _).cons.cons.after _).cons.after _⟩
  | short _ _ _ statePadded readPadded writePadded =>
      simp only [List.append_assoc, List.cons_append, String.toList_ofList]
      have inState := standsIn_padded statePadded (show ',' ≠ '>' by decide)
      exact ⟨inState _, (standsIn_padded readPadded (by decide) _).cons.after _, inState _,
        ((standsIn_padded writePadded (by decide) _).cons.after _).cons.after _⟩

/-- A field's characters are characters of its line. -/
theorem StandsIn.mem {c : Char} (stands : StandsIn field content) (member : c ∈ field) :
    c ∈ content := by
  obtain ⟨leading, trailing, rfl, _⟩ := stands
  simp [member]

/-- In a line that opens no comment, a hash where a word may begin is the last character of
its field. -/
theorem IsField.eq_nil_of_whole {leading trailing before after : List Char}
    (isField : IsField field) (cut : field = before ++ '#' :: after)
    (apart : trailing.head? ≠ some '>')
    (whole : beforeComment true (leading ++ (field ++ trailing)) = leading ++ (field ++ trailing))
    (begins : wordMayBegin true (leading ++ before) = true) : after = [] := by
  apply isField.eq_nil_of_endsField cut apart
  exact beforeComment_eq_self_iff.mp whole (leading ++ before) (after ++ trailing)
    (by simp [cut]) begins

/-- A hash that begins a text and is not its last character opens a comment; all others
that count follow a blank. -/
theorem hashesLast_of_not_opensComment (closed : ¬OpensComment field)
    (inside : ∀ before c after, field = before ++ c :: '#' :: after → isBlank c = true →
      after = []) : HashesLast field := by
  intro before after cut blank
  rcases List.eq_nil_or_concat before with rfl | ⟨front, c, rfl⟩
  · cases after with
    | nil => rfl
    | cons d rest => exact absurd ⟨d, rest, cut⟩ closed
  · exact inside front c after (by simp [cut]) (blank c (by simp))

/-- A hash that is the last character of its field opens no comment. -/
theorem HashesLast.not_opensComment (last : HashesLast field) : ¬OpensComment field := by
  rintro ⟨c, rest, same⟩
  have nothing : c :: rest = [] := last [] (c :: rest) same (by simp)
  cases nothing

/-- A field of a line that opens no comment has no hash after a blank but at its end. -/
theorem IsField.hashesLast (isField : IsField field) (stands : StandsIn field content)
    (whole : beforeComment true content = content) (closed : ¬OpensComment field) :
    HashesLast field := by
  obtain ⟨leading, trailing, rfl, apart⟩ := stands
  refine hashesLast_of_not_opensComment closed fun before c after cut blank => ?_
  have atHash : field = (before ++ [c]) ++ '#' :: after := by simp [cut]
  apply isField.eq_nil_of_whole atHash apart whole
  simp [wordMayBegin_append, blank]

/-- What is left of a line begins with the state of its rule, and goes on. -/
theorem Declares.begins (declares : Declares content declared) :
    ∃ c more, content = declared.state.toList ++ c :: more := by
  obtain ⟨state, stateText, rest, isField, ⟨before, after, beforeBlank, _, rfl⟩, same, rfl⟩ :
      ∃ state stateText rest, IsField state ∧ Padded state stateText ∧
        declared.state.toList = state ∧ content = stateText ++ ',' :: rest := by
    cases declares.isRuleLine with
    | arrow stateField _ _ _ statePadded =>
        exact ⟨_, _, _, stateField, statePadded, String.toList_ofList,
          by simp only [List.append_assoc, List.cons_append]; rfl⟩
    | short stateField _ _ statePadded =>
        exact ⟨_, _, _, stateField, statePadded, String.toList_ofList,
          by simp only [List.append_assoc, List.cons_append]; rfl⟩
  have unpadded : before = [] := by
    cases before with
    | nil => rfl
    | cons c before =>
        have visible := (trim_eq_self_iff.mp declares.trimmed).1 c rfl
        simp [beforeBlank c List.mem_cons_self] at visible
  subst unpadded
  rw [same]
  cases after with
  | nil => exact ⟨',', rest, by simp⟩
  | cons c after => exact ⟨c, after ++ ',' :: rest, by simp⟩

/-- The state of a declared rule begins with no hash. -/
theorem Declares.state_noHash (declares : Declares content declared) :
    declared.state.toList.head? ≠ some '#' := by
  obtain ⟨c, more, cut⟩ := declares.begins
  have nonempty := declares.isRuleLine.hasFields.state.nonempty
  intro first
  apply declares.noHash
  rw [cut, List.head?_append, first]
  rfl

/-- The state of a declared rule does not begin as the directive does. -/
theorem Declares.state_noDirective (declares : Declares content declared) :
    ¬OpensDirective declared.state.toList := by
  obtain ⟨c, more, cut⟩ := declares.begins
  intro opens
  exact tapeCells?_ne_none opens (cut ▸ declares.noTape)

/-- The fields of a declared rule that are printed after a space. -/
def spacedFields (rule : Rule) : List (List Char) :=
  [rule.read.toList, rule.next.toList, rule.write.toList]

/-- A rule that was declared on a line is printable if none of the fields that are printed
after a space opens a comment there. -/
theorem Declares.printable_iff (declares : Declares content declared)
    (unbroken : Unbroken content) :
    PrintableRule declared ↔ ∀ field ∈ spacedFields declared, ¬OpensComment field := by
  have fields := declares.isRuleLine.hasFields
  obtain ⟨inState, inRead, inNext, inWrite⟩ := declares.isRuleLine.standsIn
  have keeps {field : List Char} (isField : IsField field) (stands : StandsIn field content)
      (closed : ¬OpensComment field) : IsPrintable field :=
    { toIsField := isField
      unbroken := fun c member => unbroken c (stands.mem member)
      hashesLast := isField.hashesLast stands declares.whole closed }
  have stateClosed : ¬OpensComment declared.state.toList := by
    rintro ⟨c, rest, same⟩
    exact declares.state_noHash (by rw [same]; rfl)
  simp only [spacedFields, List.mem_cons, List.not_mem_nil, or_false, forall_eq_or_imp, forall_eq]
  constructor
  · intro printable
    exact ⟨printable.read.hashesLast.not_opensComment, printable.next.hashesLast.not_opensComment,
      printable.write.hashesLast.not_opensComment⟩
  · rintro ⟨readClosed, nextClosed, writeClosed⟩
    exact
      { state := keeps fields.state inState stateClosed
        read := keeps fields.read inRead readClosed
        next := keeps fields.next inNext nextClosed
        write := keeps fields.write inWrite writeClosed
        noHash := declares.state_noHash
        noDirective := declares.state_noDirective }

end TapeLab.Classic
