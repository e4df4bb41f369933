import TapeLab.Classic.Printer
import TapeLab.Proofs.Classic.Fields

/-!
# What the printer writes and the reader makes of it

A rule with well-formed fields is printed as a rule line (`Classic.isRuleLine_describe`).
Its line is read as the rule if the rule is printable (`Classic.readLine_describe`), and
only then (`Classic.printable_of_readLine`).  The text that rules are printed as has one
line for each, below the header (`Classic.readings_print`).
-/

namespace TapeLab.Classic

open TapeLab.Text

variable {rule other : Rule} {rules : List Rule}

/-- The line of a rule, character by character. -/
theorem toList_describe (rule : Rule) :
    rule.describe.toList =
      rule.state.toList ++ ',' :: ' ' :: (rule.read.toList ++ ' ' :: '-' :: '>' :: ' ' ::
        (rule.next.toList ++ ',' :: ' ' :: (rule.write.toList ++ [',', ' ', rule.move.letter]))) := by
  simp [Rule.describe]

/-- No line ends in the line of a rule if none ends in its fields. -/
theorem unbroken_describe (state : Unbroken rule.state.toList) (read : Unbroken rule.read.toList)
    (next : Unbroken rule.next.toList) (write : Unbroken rule.write.toList) :
    Unbroken rule.describe.toList := by
  have letter : Unbroken [',', ' ', rule.move.letter] := by
    cases rule.move <;> decide
  rw [toList_describe]
  simp only [unbroken_append, unbroken_cons, state, read, next, write, letter, true_and, and_true]
  decide

/-- No line ends in the line of a printable rule. -/
theorem PrintableRule.unbroken_describe (printable : PrintableRule rule) :
    Unbroken rule.describe.toList :=
  Classic.unbroken_describe printable.state.unbroken printable.read.unbroken
    printable.next.unbroken printable.write.unbroken

/-- A text with a space in front pads itself. -/
theorem padded_space (text : List Char) : Padded text (' ' :: text) :=
  ⟨[' '], [], by simp [AllBlank, isBlank], by simp [AllBlank], by simp⟩

/-- A text between two spaces is padded. -/
theorem padded_spaces (text : List Char) : Padded text (' ' :: (text ++ [' '])) :=
  ⟨[' '], [' '], by simp [AllBlank, isBlank], by simp [AllBlank, isBlank], by simp⟩

/-- A rule with well-formed fields is printed as a rule line. -/
theorem isRuleLine_describe (fields : HasFields rule) :
    IsRuleLine rule.describe.toList rule.bare := by
  have named : NamesMove rule.move [' ', rule.move.letter] :=
    ⟨rule.move.letter, Move.ofLetter?_letter rule.move, padded_space _⟩
  have isLine := IsRuleLine.arrow fields.state fields.read fields.next fields.write
    (padded_refl _) (padded_spaces _) (padded_space _) (padded_space _) named
  simp only [String.ofList_toList, List.append_assoc, List.cons_append, List.nil_append] at isLine
  rw [toList_describe]
  exact isLine

/-- The line of a rule ends with the third of its commas and the letter of the move. -/
theorem exists_describe_eq_append (fields : HasFields rule) :
    ∃ front, rule.describe.toList = front ++ [',', ' ', rule.move.letter] ∧
      front.count ',' = 2 := by
  refine ⟨rule.state.toList ++ ',' :: ' ' :: (rule.read.toList ++ ' ' :: '-' :: '>' :: ' ' ::
    (rule.next.toList ++ ',' :: ' ' :: rule.write.toList)), by simp [toList_describe], ?_⟩
  simp [List.count_append, List.count_eq_zero.mpr fields.state.noComma,
    List.count_eq_zero.mpr fields.read.noComma, List.count_eq_zero.mpr fields.next.noComma,
    List.count_eq_zero.mpr fields.write.noComma]

/-- No blank begins or ends the line of a rule. -/
theorem trim_describe (fields : HasFields rule) : trim rule.describe.toList = rule.describe.toList := by
  rw [trim_eq_self_iff]
  constructor
  · intro c first
    rw [toList_describe] at first
    apply (trim_eq_self_iff.mp fields.state.trimmed).1
    cases same : rule.state.toList with
    | nil => exact absurd same fields.state.nonempty
    | cons d rest => simpa [same] using first
  · intro c last
    obtain ⟨front, same, _⟩ := exists_describe_eq_append fields
    have isLetter : c = rule.move.letter := by simpa [same] using last.symm
    rw [isLetter]
    cases rule.move <;> decide

/-- A field is kept whole before its end if no hash but its last character could open a
comment. -/
theorem beforeComment_append {atWordStart : Bool} {field rest : List Char}
    (closed : ∀ before after, field = before ++ '#' :: after →
      wordMayBegin atWordStart before = true → after = [])
    (ends : endsField rest = true) :
    beforeComment atWordStart (field ++ rest) =
      field ++ beforeComment (wordMayBegin atWordStart field) rest := by
  induction field generalizing atWordStart with
  | nil => rfl
  | cons c field inductionHypothesis =>
      have kept : (c == '#' && atWordStart && !endsField (field ++ rest)) = false := by
        by_cases opens : c = '#' ∧ atWordStart = true
        · obtain ⟨rfl, begins⟩ := opens
          have last : field = [] := closed [] field rfl begins
          simp [last, ends]
        · grind
      have later := inductionHypothesis fun before after cut begins =>
        closed (c :: before) after (by rw [cut]; rfl) (by simpa using begins)
      simp only [List.cons_append, beforeComment, kept, Bool.false_eq_true, if_false, later,
        wordMayBegin_cons]

/-- `beforeComment_append` for a field in which hashes come last. -/
theorem HashesLast.beforeComment_append {atWordStart : Bool} {field rest : List Char}
    (last : HashesLast field) (ends : endsField rest = true) :
    beforeComment atWordStart (field ++ rest) =
      field ++ beforeComment (wordMayBegin atWordStart field) rest := by
  refine Classic.beforeComment_append (fun before after cut begins => ?_) ends
  apply last before after cut
  intro c isLast
  have same : before.getLast? = some c := isLast
  simpa [wordMayBegin, same] using begins

/-- The line of a printable rule opens no comment. -/
theorem beforeComment_describe (printable : PrintableRule rule) :
    beforeComment true rule.describe.toList = rule.describe.toList := by
  have afterComma (text : List Char) : endsField (',' :: text) = true := by
    simp [endsField, trimStart, isBlank]
  have afterArrow (text : List Char) : endsField (' ' :: '-' :: '>' :: text) = true := by
    simp [endsField, trimStart, isBlank]
  have letter (atWordStart : Bool) :
      beforeComment atWordStart [rule.move.letter] = [rule.move.letter] := by
    cases rule.move <;> cases atWordStart <;> decide
  have separator {atWordStart : Bool} {c : Char} {text : List Char} (visible : c ≠ '#') :
      beforeComment atWordStart (c :: text) = c :: beforeComment (isBlank c) text := by
    simp [beforeComment, visible]
  rw [toList_describe, printable.state.hashesLast.beforeComment_append (afterComma _),
    separator (by decide), separator (by decide),
    printable.read.hashesLast.beforeComment_append (afterArrow _),
    separator (by decide), separator (by decide), separator (by decide), separator (by decide),
    printable.next.hashesLast.beforeComment_append (afterComma _),
    separator (by decide), separator (by decide),
    printable.write.hashesLast.beforeComment_append (afterComma _),
    separator (by decide), separator (by decide), letter]

/-- A line of a rule has at least three commas. -/
theorem count_comma_of_isRuleLine {content : List Char} (isRuleLine : IsRuleLine content rule) :
    3 ≤ content.count ',' := by
  cases isRuleLine <;> simp only [List.count_append, List.count_cons] <;> simp <;> omega

/-- A comment that is cut off the line of a rule with well-formed fields takes a comma with
it, and then nothing is left that declares a rule. -/
theorem beforeComment_describe_of_isRuleLine (fields : HasFields rule)
    (isRuleLine : IsRuleLine (stripComment rule.describe.toList) other) :
    beforeComment true rule.describe.toList = rule.describe.toList := by
  rcases beforeComment_cases true rule.describe.toList with whole | ⟨comment, cut⟩
  · exact whole
  · exfalso
    obtain ⟨front, same, twoCommas⟩ := exists_describe_eq_append fields
    obtain ⟨leading, trailing, _, _, padded⟩ := padded_trim (beforeComment true rule.describe.toList)
    have threeCommas : 3 ≤ (beforeComment true rule.describe.toList).count ',' := by
      have least := count_comma_of_isRuleLine isRuleLine
      rw [stripComment] at least
      rw [padded, List.count_append, List.count_append]
      omega
    rw [same] at cut
    rw [same] at threeCommas
    rcases List.append_eq_append_iff.mp cut with ⟨inside, _, tail⟩ | ⟨inside, shorter, _⟩
    · have member : '#' ∈ [',', ' ', rule.move.letter] := by rw [tail]; simp
      cases move : rule.move <;> simp [move, Move.letter] at member
    · have counted := congrArg (List.count ',') shorter
      rw [List.count_append] at counted
      omega

/-- The line of a printable rule is read as the rule. -/
theorem readLine_describe (printable : PrintableRule rule) (number : Nat) :
    readLine number rule.describe.toList = .rule { rule.bare with line := some (number : Int) } := by
  have fields : HasFields rule :=
    ⟨printable.state.toIsField, printable.read.toIsField, printable.next.toIsField,
      printable.write.toIsField⟩
  have trimmed := trim_describe fields
  have whole : stripComment rule.describe.toList = rule.describe.toList := by
    rw [stripComment, beforeComment_describe printable, trimmed]
  obtain ⟨c, state, begins⟩ := List.exists_cons_of_ne_nil fields.state.nonempty
  have closed : ¬OpensDirective rule.describe.toList := by
    rw [toList_describe]
    exact fun opens => printable.noDirective opens.of_append_comma
  rw [readLine, readTrimmed_eq_rule_iff, trimmed, whole]
  refine ⟨?_, ?_, tapeCells?_eq_none closed, readRule_complete (isRuleLine_describe fields) _⟩
  · rw [toList_describe, begins]
    simp
  · have noHash := printable.noHash
    rw [toList_describe, begins] at *
    simpa using noHash

/-- A space is printed before every field but the state. -/
theorem exists_space_before {field : List Char} (member : field ∈ spacedFields rule) :
    ∃ leading trailing, rule.describe.toList = (leading ++ [' ']) ++ (field ++ trailing) ∧
      trailing.head? ≠ some '>' := by
  simp only [spacedFields, List.mem_cons, List.not_mem_nil, or_false] at member
  rcases member with rfl | rfl | rfl
  · exact ⟨rule.state.toList ++ [','], ' ' :: '-' :: '>' :: ' ' :: (rule.next.toList ++
      ',' :: ' ' :: (rule.write.toList ++ [',', ' ', rule.move.letter])),
      by simp [toList_describe], by simp⟩
  · exact ⟨rule.state.toList ++ ',' :: ' ' :: (rule.read.toList ++ [' ', '-', '>']),
      ',' :: ' ' :: (rule.write.toList ++ [',', ' ', rule.move.letter]),
      by simp [toList_describe], by simp⟩
  · exact ⟨rule.state.toList ++ ',' :: ' ' :: (rule.read.toList ++ ' ' :: '-' :: '>' :: ' ' ::
      (rule.next.toList ++ [','])), [',', ' ', rule.move.letter],
      by simp [toList_describe], by simp⟩

/-- In a printed line that opens no comment, no field begins with a hash and goes on. -/
theorem not_opensComment_of_whole (fields : HasFields rule)
    (whole : beforeComment true rule.describe.toList = rule.describe.toList) {field : List Char}
    (member : field ∈ spacedFields rule) : ¬OpensComment field := by
  obtain ⟨leading, trailing, same, apart⟩ := exists_space_before member
  have isField : IsField field := by
    simp only [spacedFields, List.mem_cons, List.not_mem_nil, or_false] at member
    rcases member with rfl | rfl | rfl
    · exact fields.read
    · exact fields.next
    · exact fields.write
  rw [same] at whole
  rintro ⟨c, rest, cut⟩
  have atHash : field = [] ++ '#' :: c :: rest := cut
  have nothing := isField.eq_nil_of_whole atHash apart whole
    (by simp [wordMayBegin_append, show isBlank ' ' = true by decide])
  cases nothing

/-- A rule with well-formed fields in which no line ends is printable if its line declares
any rule. -/
theorem printable_of_readLine {number : Nat} (fields : HasFields rule)
    (unbroken : Unbroken rule.describe.toList)
    (found : readLine number rule.describe.toList = .rule other) : PrintableRule rule := by
  have trimmed := trim_describe fields
  have declares := (declares_of_readLine found).1
  rw [trimmed] at declares
  have whole := beforeComment_describe_of_isRuleLine fields declares.isRuleLine
  have same : stripComment rule.describe.toList = rule.describe.toList := by
    rw [stripComment, whole, trimmed]
  rw [same] at declares
  have ownDeclares : Declares rule.describe.toList rule.bare :=
    { declares with isRuleLine := isRuleLine_describe fields }
  apply printableRule_bare.mp
  exact (ownDeclares.printable_iff unbroken).mpr fun _ member =>
    not_opensComment_of_whole fields whole member

/-- Lines that are joined by line feeds and ended by one more. -/
theorem toList_intercalate_feed {parts : List String} (nonempty : parts ≠ []) :
    (String.intercalate "\n" parts ++ "\n").toList =
      parts.flatMap fun part => part.toList ++ ['\n'] := by
  induction parts with
  | nil => exact absurd rfl nonempty
  | cons part parts inductionHypothesis =>
      cases parts with
      | nil => simp
      | cons next parts =>
          have later := inductionHypothesis (by simp)
          rw [String.intercalate_cons_cons, String.append_assoc, String.toList_append, later]
          simp

/-- The printed rules are the header and the lines of the rules. -/
theorem toList_print (rules : List Rule) :
    (print rules).toList =
      (convertedHeader.toList :: rules.map fun rule => rule.describe.toList).flatMap
        fun line => line ++ ['\n'] := by
  have shown : printedLines rules convertedHeader = convertedHeader :: rules.map Rule.describe := rfl
  rw [print, shown, toList_intercalate_feed (List.cons_ne_nil _ _), List.flatMap_cons,
    List.flatMap_cons, List.flatMap_map, List.flatMap_map]

/-- The readings of printed rules in which no line ends: a comment, and one line for each. -/
theorem readings_print (unbroken : ∀ rule ∈ rules, Unbroken rule.describe.toList) :
    readings (print rules) =
      .ignored :: (numberFrom 2 rules).map fun line => readLine line.1 line.2.describe.toList := by
  have allUnbroken : ∀ line ∈ convertedHeader.toList :: rules.map fun rule => rule.describe.toList,
      Unbroken line := by
    intro line member
    rcases List.mem_cons.mp member with rfl | later
    · decide
    · obtain ⟨rule, isRule, rfl⟩ := List.mem_map.mp later
      exact unbroken rule isRule
  have header : readLine 1 convertedHeader.toList = .ignored := by decide
  rw [readings, toList_print, lines_flatMap allUnbroken]
  simp only [numberFrom, numberFrom_map, List.map_cons, List.map_map, header, Function.comp_def,
    Nat.reduceAdd]

end TapeLab.Classic
