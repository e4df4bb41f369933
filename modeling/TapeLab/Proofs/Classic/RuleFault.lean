import TapeLab.Proofs.Classic.RuleLine

/-!
# Why lines are refused

A line that is no rule line is refused with a fault that it has: two arrows, the wrong number of
commas, a field that is blank, or a last field that names no move (`Classic.readRule_eq_error_iff`).
What has neither too many arrows nor the wrong commas falls into parts, and then only the parts
matter (`Classic.readRule_of_hasParts`).  With that the reader accepts the rule lines, each as the
one rule that it declares, and gives every other line a fault (`Classic.readRule_exact`).
-/

namespace TapeLab.Classic

open TapeLab.Text

variable {text first second : List Char} {line : Option Int}

/-- A text that no separator cuts. -/
structure Uncut (text : List Char) : Prop where
  noComma : ',' ∉ text
  arrowless : Arrowless text

/-- The texts between the separators of a line. -/
structure Parts where
  state : List Char
  read : List Char
  next : List Char
  write : List Char
  move : List Char

/-- The parts that may not be blank. -/
def Parts.names (parts : Parts) : List (List Char) :=
  [parts.state, parts.read, parts.next, parts.write]

/-- A line has the separators of a rule line.  In the short form the state stands for the next
one. -/
inductive HasParts : List Char → Parts → Prop where
  | arrow {state read next write move : List Char} (stateUncut : Uncut state)
      (readUncut : Uncut read) (nextUncut : Uncut next) (writeUncut : Uncut write)
      (moveUncut : Uncut move) :
      HasParts (state ++ ',' :: read ++ '-' :: '>' :: (next ++ ',' :: (write ++ ',' :: move)))
        { state, read, next, write, move }
  | short {state read write move : List Char} (stateUncut : Uncut state) (readUncut : Uncut read)
      (writeUncut : Uncut write) (moveUncut : Uncut move) :
      HasParts (state ++ ',' :: (read ++ ',' :: (write ++ ',' :: move)))
        { state, read, next := state, write, move }

/-- What is wrong with a line that is no rule line. -/
inductive HasFault : List Char → RuleFault → Prop where
  | manyArrows (first second third : List Char) :
      HasFault (first ++ '-' :: '>' :: (second ++ '-' :: '>' :: third)) .manyArrows
  | arrowShape {left right : List Char} (leftArrowless : Arrowless left)
      (rightArrowless : Arrowless right) (shape : ¬(left.count ',' = 1 ∧ right.count ',' = 2)) :
      HasFault (left ++ '-' :: '>' :: right) .arrowShape
  | shorthandShape {text : List Char} (arrowless : Arrowless text) (shape : text.count ',' ≠ 3) :
      HasFault text .shorthandShape
  | emptyField {text : List Char} {parts : Parts} (hasParts : HasParts text parts)
      (missing : ∃ name ∈ parts.names, AllBlank name) : HasFault text .emptyField
  | unknownMove {text : List Char} {parts : Parts} (hasParts : HasParts text parts)
      (present : ∀ name ∈ parts.names, ¬AllBlank name)
      (unnamed : ∀ move, ¬NamesMove move parts.move) :
      HasFault text (.unknownMove (String.ofList (trim parts.move)))

/-! ### Separators -/

/-- There is one field more than there are commas. -/
theorem length_fields (text : List Char) : (fields text).length = text.count ',' + 1 := by
  rcases fields_cases text with ⟨absent, same⟩ | ⟨before, rest, absent, cut, same⟩
  · rw [same, List.length_singleton, List.count_eq_zero.mpr absent]
  · have shorter : rest.length < text.length := by
      simp only [cut, List.length_append, List.length_cons]
      omega
    rw [same, List.length_cons, length_fields rest, cut, List.count_append,
      List.count_eq_zero.mpr absent, List.count_cons_self, Nat.zero_add]
termination_by text.length

/-- A text with a comma is cut at the first one. -/
theorem exists_cut {commas : Nat} (counted : text.count ',' = commas + 1) :
    ∃ before rest, ',' ∉ before ∧ text = before ++ ',' :: rest ∧ rest.count ',' = commas := by
  have member : ',' ∈ text := List.count_pos_iff.mp (by omega)
  obtain ⟨before, rest, rfl, absent⟩ := List.eq_append_cons_of_mem member
  rw [List.count_append, List.count_eq_zero.mpr absent, List.count_cons_self] at counted
  exact ⟨before, rest, absent, rfl, by omega⟩

/-- The texts around a comma have no arrows if the whole has none. -/
theorem Arrowless.of_comma (arrowless : Arrowless (first ++ ',' :: second)) :
    Arrowless first ∧ Arrowless second :=
  ⟨arrowless.of_append.1, (arrowless_cons_iff.mp arrowless.of_append.2).2⟩

/-- A text without arrows and with one comma is two parts. -/
theorem exists_two_parts (arrowless : Arrowless text) (counted : text.count ',' = 1) :
    ∃ former latter, text = former ++ ',' :: latter ∧ Uncut former ∧ Uncut latter := by
  obtain ⟨former, latter, absent, rfl, none⟩ := exists_cut counted
  obtain ⟨formerArrowless, latterArrowless⟩ := arrowless.of_comma
  exact ⟨former, latter, rfl, ⟨absent, formerArrowless⟩,
    ⟨List.count_eq_zero.mp none, latterArrowless⟩⟩

/-- A text without arrows and with two commas is three parts. -/
theorem exists_three_parts (arrowless : Arrowless text) (counted : text.count ',' = 2) :
    ∃ former middle latter, text = former ++ ',' :: (middle ++ ',' :: latter) ∧ Uncut former ∧
      Uncut middle ∧ Uncut latter := by
  obtain ⟨former, rest, absent, rfl, one⟩ := exists_cut counted
  obtain ⟨formerArrowless, restArrowless⟩ := arrowless.of_comma
  obtain ⟨middle, latter, rfl, middleUncut, latterUncut⟩ := exists_two_parts restArrowless one
  exact ⟨former, middle, latter, rfl, ⟨absent, formerArrowless⟩, middleUncut, latterUncut⟩

/-- A text without arrows and with three commas has the parts of the short form. -/
theorem exists_hasParts_short (arrowless : Arrowless text) (counted : text.count ',' = 3) :
    ∃ parts, HasParts text parts := by
  obtain ⟨state, rest, absent, rfl, two⟩ := exists_cut counted
  obtain ⟨stateArrowless, restArrowless⟩ := arrowless.of_comma
  obtain ⟨read, write, move, rfl, readUncut, writeUncut, moveUncut⟩ :=
    exists_three_parts restArrowless two
  exact ⟨_, .short ⟨absent, stateArrowless⟩ readUncut writeUncut moveUncut⟩

/-- The kinds of lines by their separators. -/
theorem separators_cases (text : List Char) :
    (∃ first second third, text = first ++ '-' :: '>' :: (second ++ '-' :: '>' :: third)) ∨
      (∃ left right, text = left ++ '-' :: '>' :: right ∧ Arrowless left ∧ Arrowless right ∧
        ¬(left.count ',' = 1 ∧ right.count ',' = 2)) ∨
      (Arrowless text ∧ text.count ',' ≠ 3) ∨ ∃ parts, HasParts text parts := by
  rcases arrowless_or_exists_arrow text with arrowless | ⟨left, right, rfl, leftArrowless⟩
  · by_cases shape : text.count ',' = 3
    · exact .inr (.inr (.inr (exists_hasParts_short arrowless shape)))
    · exact .inr (.inr (.inl ⟨arrowless, shape⟩))
  · rcases arrowless_or_exists_arrow right with rightArrowless | ⟨second, third, rfl, _⟩
    · by_cases shape : left.count ',' = 1 ∧ right.count ',' = 2
      · obtain ⟨state, read, rfl, stateUncut, readUncut⟩ := exists_two_parts leftArrowless shape.1
        obtain ⟨next, write, move, rfl, nextUncut, writeUncut, moveUncut⟩ :=
          exists_three_parts rightArrowless shape.2
        exact .inr (.inr (.inr ⟨_, .arrow stateUncut readUncut nextUncut writeUncut moveUncut⟩))
      · exact .inr (.inl ⟨left, right, rfl, leftArrowless, rightArrowless, shape⟩)
    · exact .inl ⟨left, second, third, rfl⟩

/-! ### What the reader makes of them -/

/-- A text with an arrow in it can be split. -/
theorem isSome_splitArrow? (first second : List Char) :
    (splitArrow? (first ++ '-' :: '>' :: second)).isSome = true := by
  rcases arrowless_or_exists_arrow (first ++ '-' :: '>' :: second) with
    arrowless | ⟨before, after, cut, arrowless⟩
  · exact absurd rfl (arrowless first second)
  · rw [cut, splitArrow?_append arrowless]
    rfl

/-- A second arrow is found wherever it stands. -/
theorem readRule_manyArrows (first second third : List Char) (line : Option Int) :
    readRule (first ++ '-' :: '>' :: (second ++ '-' :: '>' :: third)) line =
      .error .manyArrows := by
  -- The first arrow of all may stand in front of the two.
  rcases arrowless_or_exists_arrow first with arrowless | ⟨before, after, rfl, arrowless⟩
  · rw [readRule, splitArrow?_append arrowless]
    simp only [isSome_splitArrow?, if_true]
  · rw [List.append_assoc, List.cons_append, List.cons_append, readRule,
      splitArrow?_append arrowless]
    simp only [isSome_splitArrow?, if_true]

/-- Around a single arrow there are two fields and three, or the shape is wrong. -/
theorem readRule_arrowShape {left right : List Char} (leftArrowless : Arrowless left)
    (rightArrowless : Arrowless right) (shape : ¬(left.count ',' = 1 ∧ right.count ',' = 2)) :
    readRule (left ++ '-' :: '>' :: right) line = .error .arrowShape := by
  rw [readRule, splitArrow?_append leftArrowless]
  simp only [splitArrow?_of_arrowless rightArrowless, Option.isSome_none, Bool.false_eq_true,
    if_false]
  split
  · next two three =>
    have leftLength := length_fields left
    have rightLength := length_fields right
    rw [two] at leftLength
    rw [three] at rightLength
    simp only [List.length_cons, List.length_nil] at leftLength rightLength
    exact absurd ⟨by omega, by omega⟩ shape
  · rfl

/-- Without an arrow there are four fields, or the shape is wrong. -/
theorem readRule_shorthandShape (arrowless : Arrowless text) (shape : text.count ',' ≠ 3) :
    readRule text line = .error .shorthandShape := by
  rw [readRule, splitArrow?_of_arrowless arrowless]
  simp only
  split
  · next four =>
    have length := length_fields text
    rw [four] at length
    simp only [List.length_cons, List.length_nil] at length
    exact absurd (by omega) shape
  · rfl

/-- The rule of a line is made of its parts, trimmed. -/
theorem readRule_of_hasParts {parts : Parts} (hasParts : HasParts text parts) :
    readRule text line = ruleOfFields (trim parts.state) (trim parts.read) (trim parts.next)
      (trim parts.write) (trim parts.move) line := by
  cases hasParts with
  | arrow stateUncut readUncut nextUncut writeUncut moveUncut =>
      have leftArrowless := stateUncut.arrowless.comma readUncut.arrowless
      have rightArrowless :=
        nextUncut.arrowless.comma (writeUncut.arrowless.comma moveUncut.arrowless)
      rw [readRule, splitArrow?_append leftArrowless]
      simp only [splitArrow?_of_arrowless rightArrowless, Option.isSome_none, Bool.false_eq_true,
        if_false, fields_append stateUncut.noComma, fields_of_notMem readUncut.noComma,
        fields_append nextUncut.noComma, fields_append writeUncut.noComma,
        fields_of_notMem moveUncut.noComma]
  | short stateUncut readUncut writeUncut moveUncut =>
      have arrowless := stateUncut.arrowless.comma
        (readUncut.arrowless.comma (writeUncut.arrowless.comma moveUncut.arrowless))
      simp only [readRule, splitArrow?_of_arrowless arrowless, fields_append stateUncut.noComma,
        fields_append readUncut.noComma, fields_append writeUncut.noComma,
        fields_of_notMem moveUncut.noComma]

/-! ### Faults -/

/-- Trimming leaves nothing of a blank text only. -/
theorem isEmpty_trim : (trim text).isEmpty = true ↔ AllBlank text := by
  rw [List.isEmpty_iff]
  constructor
  · intro nothing
    obtain ⟨before, after, beforeBlank, afterBlank, cut⟩ := padded_trim text
    rw [cut, nothing, List.append_nil]
    exact List.forall_mem_append.mpr ⟨beforeBlank, afterBlank⟩
  · intro blank
    rw [trim, trimStart_eq_nil_iff.mpr blank]
    rfl

/-- A blank part is an empty field. -/
theorem isEmpty_fields_iff (parts : Parts) :
    ((trim parts.state).isEmpty || (trim parts.read).isEmpty || (trim parts.next).isEmpty ||
      (trim parts.write).isEmpty) = true ↔ ∃ name ∈ parts.names, AllBlank name := by
  simp only [Bool.or_eq_true, isEmpty_trim, Parts.names, List.mem_cons, List.not_mem_nil,
    or_false, exists_eq_or_imp, exists_eq_left, or_assoc]

/-- A word is read as a move exactly if it names one. -/
theorem read?_trim_eq_none_iff :
    Move.read? (String.ofList (trim text)) = none ↔ ∀ move, ¬NamesMove move text := by
  rw [Option.eq_none_iff_forall_ne_some]
  exact forall_congr' fun move =>
    not_congr ⟨namesMove_of_read?, fun named => named.plain.2.2⟩

/-- A refused line has the fault with which it is refused. -/
theorem hasFault_of_readRule {fault : RuleFault} (refused : readRule text line = .error fault) :
    HasFault text fault := by
  rcases separators_cases text with ⟨first, second, third, rfl⟩ |
    ⟨left, right, rfl, leftArrowless, rightArrowless, shape⟩ | ⟨arrowless, shape⟩ |
    ⟨parts, hasParts⟩
  · rw [readRule_manyArrows] at refused
    cases refused
    exact .manyArrows first second third
  · rw [readRule_arrowShape leftArrowless rightArrowless shape] at refused
    cases refused
    exact .arrowShape leftArrowless rightArrowless shape
  · rw [readRule_shorthandShape arrowless shape] at refused
    cases refused
    exact .shorthandShape arrowless shape
  · rw [readRule_of_hasParts hasParts, ruleOfFields] at refused
    split at refused
    · next missing =>
      cases refused
      exact .emptyField hasParts ((isEmpty_fields_iff parts).mp missing)
    · next complete =>
      have present : ∀ name ∈ parts.names, ¬AllBlank name := by
        simpa using mt (isEmpty_fields_iff parts).mpr complete
      split at refused
      · next unread =>
        cases refused
        exact .unknownMove hasParts present (read?_trim_eq_none_iff.mp unread)
      · cases refused

/-- A line with a fault is refused with it. -/
theorem HasFault.readRule {fault : RuleFault} (hasFault : HasFault text fault) :
    readRule text line = .error fault := by
  cases hasFault with
  | manyArrows first second third => exact readRule_manyArrows first second third line
  | arrowShape leftArrowless rightArrowless shape =>
      exact readRule_arrowShape leftArrowless rightArrowless shape
  | shorthandShape arrowless shape => exact readRule_shorthandShape arrowless shape
  | @emptyField _ parts hasParts missing =>
      rw [readRule_of_hasParts hasParts, ruleOfFields,
        if_pos ((isEmpty_fields_iff parts).mpr missing)]
  | @unknownMove _ parts hasParts present unnamed =>
      have complete : ¬∃ name ∈ parts.names, AllBlank name := by simpa using present
      rw [readRule_of_hasParts hasParts, ruleOfFields,
        if_neg (mt (isEmpty_fields_iff parts).mp complete), read?_trim_eq_none_iff.mpr unnamed]

/-- A line is refused with a fault exactly if it has the fault. -/
theorem readRule_eq_error_iff {fault : RuleFault} :
    readRule text line = .error fault ↔ HasFault text fault :=
  ⟨hasFault_of_readRule, HasFault.readRule⟩

/-- The reader accepts the lines of the grammar and no others.  A rule line is read as the rule
that it declares, and it declares no other rule; every other line is refused with a fault that it
has. -/
theorem readRule_exact (text : List Char) (line : Option Int) :
    (∀ rule, readRule text line = .ok rule ↔
        ∃ declared, IsRuleLine text declared ∧ rule = { declared with line }) ∧
      (∀ declared other, IsRuleLine text declared → IsRuleLine text other → declared = other) ∧
      ((∀ declared, ¬IsRuleLine text declared) ↔
        ∃ fault, readRule text line = .error fault ∧ HasFault text fault) := by
  have unplaced {declared : Rule} (isRule : IsRuleLine text declared) :
      { declared with line := none } = declared := by
    cases isRule <;> rfl
  refine ⟨fun rule => ⟨readRule_sound, ?_⟩, fun declared other isRule isOther => ?_, ?_, ?_⟩
  · rintro ⟨declared, isRule, rfl⟩
    exact readRule_complete isRule line
  · have same := (readRule_complete isRule none).symm.trans (readRule_complete isOther none)
    rw [unplaced isRule, unplaced isOther] at same
    exact Except.ok.inj same
  · intro noRule
    cases result : readRule text line with
    | ok rule =>
        obtain ⟨declared, isRule, -⟩ := readRule_sound result
        exact absurd isRule (noRule declared)
    | error fault => exact ⟨fault, rfl, hasFault_of_readRule result⟩
  · rintro ⟨fault, refused, -⟩ declared isRule
    rw [readRule_complete isRule line] at refused
    cases refused

/-- A rule line whose fields touch the arrow with the signs that it is made of, and a line with
an arrow too many. -/
theorem readRule_exact_touching :
    let touching := "q0,--->>q1 ,1,\tr".toList
    (∃ declared, IsRuleLine touching declared ∧
        ⟨"q0", "--", ">q1", "1", .right, false, some 3⟩ = { declared with line := some 3 } ∧
        ∀ other, IsRuleLine touching other → other = declared) ∧
      ∀ declared, ¬IsRuleLine "q0, -> -> q1, 1, R".toList declared := by
  intro touching
  have accepted : readRule touching (some 3) =
      .ok ⟨"q0", "--", ">q1", "1", .right, false, some 3⟩ := rfl
  have refused : readRule "q0, -> -> q1, 1, R".toList none = .error .manyArrows := rfl
  obtain ⟨accepts, unique, -⟩ := readRule_exact touching (some 3)
  obtain ⟨declared, isRule, same⟩ := (accepts _).mp accepted
  exact ⟨⟨declared, isRule, same, fun other isOther => unique other declared isOther isRule⟩,
    (readRule_exact _ none).2.2.mpr ⟨_, refused, hasFault_of_readRule refused⟩⟩

end TapeLab.Classic
