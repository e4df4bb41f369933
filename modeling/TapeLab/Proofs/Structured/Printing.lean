import TapeLab.Proofs.Structured.Token
import TapeLab.Proofs.Text.Lines
import TapeLab.Proofs.Text.Trimming
import TapeLab.Structured.Printer

/-!
# What printed lines say

Every line of a print is whole and without blanks around it once its indentation was cut,
and is read as what it says (`Structured.readContent_of_isShownAs`).
-/

namespace TapeLab.Structured

open TapeLab.Text

variable {tokens : List Token} {text written rest : List Char} {statement : Statement}

/-- A text in quotes renders a quoted symbol. -/
theorem IsQuoted.renders {value : String} (quoted : IsQuoted value written)
    (later : Renders tokens rest) : Renders (.quoted value :: tokens) (written ++ rest) := by
  obtain ⟨quote, opens, inside, rfl⟩ := quoted
  have renders := Renders.quoted opens inside later
  rw [String.ofList_toList] at renders
  simpa using renders

/-- A mark renders itself. -/
theorem renders_mark (sign : Mark) (later : Renders tokens rest) :
    Renders (.mark sign :: tokens) (sign.char :: rest) :=
  .mark later

/-- A space renders nothing. -/
theorem renders_space (later : Renders tokens rest) : Renders tokens (' ' :: rest) :=
  .blank (by decide) later

/-- A word renders itself before a colon. -/
theorem renders_word {word : String} (nonempty : word.toList ≠ [])
    (inside : ∀ c ∈ word.toList, isWordChar c = true) (later : Renders tokens rest) :
    Renders (.word word :: .mark .colon :: tokens) (word.toList ++ ':' :: rest) := by
  have ends : EndsWord (':' :: rest) := by
    rintro c others same
    obtain ⟨rfl, rfl⟩ := List.cons.inj same
    decide
  have renders := Renders.word nonempty inside ends (renders_mark .colon later)
  rwa [String.ofList_toList] at renders

/-- The line that opens a block renders the state and a colon. -/
theorem renders_headerLine {state : StateName} (quoted : IsQuoted state written) :
    Renders [.quoted state, .mark .colon] (headerLine written) :=
  quoted.renders (renders_mark .colon .done)

/-- The tokens of a transition. -/
def clauseTokens (clause : Clause) : List Token :=
  let write := match clause.write with
    | some symbol => [.word writeWord, .mark .colon, .quoted symbol, .mark .comma]
    | none => []
  .quoted clause.read :: .mark .colon :: .mark .openBrace ::
    (write ++ [.word (String.singleton clause.move.letter), .mark .colon, .quoted clause.next,
      .mark .closeBrace])

/-- The move and the next state of a transition. -/
theorem renders_move (move : Move) {next : StateName} {nextText : List Char}
    (quoted : IsQuoted next nextText) :
    Renders [.word (String.singleton move.letter), .mark .colon, .quoted next, .mark .closeBrace]
      (move.letter :: ':' :: ' ' :: (nextText ++ [Mark.closeBrace.char])) := by
  have isWord : (String.singleton move.letter).toList.all isWordChar = true := by
    cases move <;> decide
  have renders := renders_word (by simp) (List.all_eq_true.mp isWord)
    (renders_space (quoted.renders (renders_mark .closeBrace .done)))
  simpa using renders

/-- The line of a transition renders its tokens. -/
theorem renders_clauseLine {clause : Clause} (shown : Statement.IsShownAs (.clause clause) text) :
    Renders (clauseTokens clause) text := by
  cases shown with
  | @passing state next read move readText nextText readQuoted nextQuoted =>
      exact readQuoted.renders
        (renders_mark .colon (renders_space (renders_mark .openBrace (renders_move move nextQuoted))))
  | @writing state next read write move readText writeText nextText readQuoted writeQuoted
      nextQuoted =>
      have isWord : writeWord.toList.all isWordChar = true := by decide
      have entries := renders_word (by decide) (List.all_eq_true.mp isWord) (renders_space
        (writeQuoted.renders (renders_mark .comma (renders_space (renders_move move nextQuoted)))))
      have line := readQuoted.renders
        (renders_mark .colon (renders_space (renders_mark .openBrace entries)))
      simpa [clauseLine, clauseTokens, Mark.char] using line

/-- No comment is cut off the line of a setting. -/
theorem stripComment_settingLine {value : String} (quoted : IsQuoted value written)
    (field : Field) : stripComment (settingLine field written) = settingLine field written := by
  have noSign : (field.words ++ [':', ' ']).all (fun c => !isQuote c && c != '#') = true := by
    cases field <;> decide
  have plain : ∀ c ∈ field.words ++ [':', ' '], isQuote c = false ∧ c ≠ '#' := fun c member => by
    simpa using List.all_eq_true.mp noSign c member
  have whole := beforeComment?_plain plain
    (beforeComment?_of_renders (quoted.renders .done) (by simp)) true
  simp only [List.append_nil, List.append_assoc, List.cons_append, List.nil_append] at whole
  rw [stripComment, settingLine, whole]

/-- No word of a transition has a hash. -/
theorem hash_notMem_of_mem_clauseTokens {clause : Clause} {word : String}
    (member : .word word ∈ clauseTokens clause) : '#' ∉ word.toList := by
  have known : word = writeWord ∨ word = String.singleton clause.move.letter := by
    cases write : clause.write with
    | none => exact .inr (by simpa [clauseTokens, write] using member)
    | some symbol => simpa [clauseTokens, write] using member
  rcases known with rfl | rfl
  · decide
  · cases clause.move <;> decide

/-- No comment is cut off a printed line. -/
theorem stripComment_of_isShownAs (shown : statement.IsShownAs text) : stripComment text = text := by
  cases statement with
  | setting field value =>
      cases shown with | setting valueQuoted => exact stripComment_settingLine valueQuoted field
  | table =>
      cases shown
      decide
  | header state =>
      cases shown with | header stateQuoted =>
      exact stripComment_of_renders (renders_headerLine stateQuoted) (by simp)
  | clause clause =>
      exact stripComment_of_renders (renders_clauseLine shown)
        fun _ => hash_notMem_of_mem_clauseTokens

/-- The line of a transition ends with its closing brace. -/
theorem exists_clauseLine_eq (first : Char) (read : List Char) (write : Option (List Char))
    (move : Move) (next : List Char) :
    ∃ middle, clauseLine (first :: read) write move next =
      first :: (middle ++ [Mark.closeBrace.char]) := by
  cases write with
  | none =>
      exact ⟨read ++ ':' :: ' ' :: Mark.openBrace.char :: move.letter :: ':' :: ' ' :: next,
        by simp [clauseLine]⟩
  | some symbol =>
      exact ⟨read ++ ':' :: ' ' :: Mark.openBrace.char :: (writeWord.toList ++ ':' :: ' ' ::
        (symbol ++ ',' :: ' ' :: move.letter :: ':' :: ' ' :: next)), by simp [clauseLine]⟩

/-- A printed line stands between two visible characters. -/
theorem exists_enclosed_of_isShownAs (shown : statement.IsShownAs text) :
    ∃ first middle last, isBlank first = false ∧ isBlank last = false ∧
      text = first :: (middle ++ [last]) := by
  cases shown with
  | @setting field value valueText valueQuoted =>
      obtain ⟨quote, opens, _, rfl⟩ := valueQuoted
      obtain ⟨first, letters, words, begins⟩ :
          ∃ first letters, field.words = first :: letters ∧ isBlank first = false := by
        cases field <;> exact ⟨_, _, rfl, by decide⟩
      exact ⟨first, letters ++ ':' :: ' ' :: quote :: value.toList, quote, begins,
        (isBlank_of_isQuote opens).1, by simp [settingLine, words]⟩
  | table => exact ⟨'t', "able".toList, ':', by decide, by decide, by decide⟩
  | @header state stateText stateQuoted =>
      obtain ⟨quote, opens, _, rfl⟩ := stateQuoted
      exact ⟨quote, state.toList ++ [quote], ':', (isBlank_of_isQuote opens).1, by decide,
        by simp [headerLine]⟩
  | passing readQuoted _ | writing readQuoted _ _ =>
      obtain ⟨quote, opens, _, rfl⟩ := readQuoted
      obtain ⟨middle, same⟩ := exists_clauseLine_eq quote _ _ _ _
      exact ⟨quote, middle, _, (isBlank_of_isQuote opens).1, isBlank_markChar _, same⟩

/-- No blank begins or ends a printed line. -/
theorem trim_of_isShownAs (shown : statement.IsShownAs text) : trim text = text := by
  obtain ⟨first, middle, last, begins, ends, rfl⟩ := exists_enclosed_of_isShownAs shown
  exact trim_enclosed begins ends middle

/-- The names and symbols that a line is about. -/
def Statement.texts : Statement → List String
  | .setting _ value => [value]
  | .table => []
  | .header state => [state]
  | .clause transition => transition.texts

/-- No line ends in the quotes around a text. -/
theorem IsQuoted.unbroken {value : String} (quoted : IsQuoted value written)
    (whole : Unbroken value.toList) : Unbroken written := by
  obtain ⟨quote, opens, _, rfl⟩ := quoted
  have goesOn : isLineBreak quote = false := by
    rcases isQuote_iff.mp opens with rfl | rfl <;> decide
  have closes : Unbroken [quote] := unbroken_cons.mpr ⟨goesOn, by simp [Unbroken]⟩
  exact unbroken_cons.mpr ⟨goesOn, unbroken_append.mpr ⟨whole, closes⟩⟩

/-- No line ends in the line of a transition if none ends in its parts. -/
theorem unbroken_clauseLine {read next : List Char} {write : Option (List Char)}
    (readWhole : Unbroken read) (writeWhole : ∀ symbol ∈ write, Unbroken symbol) (move : Move)
    (nextWhole : Unbroken next) : Unbroken (clauseLine read write move next) := by
  have letter : isLineBreak move.letter = false := by
    cases move <;> decide
  cases write with
  | none =>
      simp only [clauseLine, unbroken_append, unbroken_cons, readWhole, nextWhole, letter]
      decide
  | some symbol =>
      simp only [clauseLine, unbroken_append, unbroken_cons, readWhole, nextWhole, letter,
        writeWhole symbol rfl]
      decide

/-- No line ends in what is printed for texts in which none ends. -/
theorem unbroken_of_isShownAs (shown : statement.IsShownAs text)
    (whole : ∀ text ∈ statement.texts, Unbroken text.toList) : Unbroken text := by
  cases shown with
  | @setting field value valueText valueQuoted =>
      have quotedWhole := valueQuoted.unbroken (whole value (by simp [Statement.texts]))
      have words : Unbroken field.words := by
        cases field <;> decide
      simp only [settingLine, unbroken_append, unbroken_cons, words, quotedWhole]
      decide
  | table => decide
  | header stateQuoted =>
      have quotedWhole := stateQuoted.unbroken (whole _ (by simp [Statement.texts]))
      simp only [headerLine, unbroken_append, quotedWhole]
      decide
  | passing readQuoted nextQuoted =>
      exact unbroken_clauseLine
        (readQuoted.unbroken (whole _ (by simp [Statement.texts, Clause.texts]))) (by simp) _
        (nextQuoted.unbroken (whole _ (by simp [Statement.texts, Clause.texts])))
  | writing readQuoted writeQuoted nextQuoted =>
      have quotedWhole :=
        writeQuoted.unbroken (whole _ (by simp [Statement.texts, Clause.texts]))
      exact unbroken_clauseLine
        (readQuoted.unbroken (whole _ (by simp [Statement.texts, Clause.texts])))
        (by simpa using quotedWhole) _
        (nextQuoted.unbroken (whole _ (by simp [Statement.texts, Clause.texts])))

/-- A printed line is not empty, and no line ends in it. -/
theorem Statement.IsLine.unbroken {line : List Char} (isLine : statement.IsLine line)
    (whole : ∀ text ∈ statement.texts, Unbroken text.toList) : Unbroken line ∧ line ≠ [] := by
  obtain ⟨indent, text, _, indentWhole, shown, rfl⟩ := isLine
  obtain ⟨first, middle, last, _, _, enclosed⟩ := exists_enclosed_of_isShownAs shown
  exact ⟨unbroken_append.mpr ⟨indentWhole, unbroken_of_isShownAs shown whole⟩, by simp [enclosed]⟩

/-- The letter of a move names it. -/
@[simp]
theorem moveOfWord?_letter (move : Move) : moveOfWord? (String.singleton move.letter) = some move := by
  cases move <;> decide

/-- The word of an entry that writes names no move. -/
@[simp]
theorem moveOfWord?_writeWord : moveOfWord? writeWord = none := by
  decide

/-- The entries of a transition. -/
def clauseEntries (clause : Clause) : List Entry :=
  let write := match clause.write with
    | some symbol => [⟨writeWord, some symbol⟩]
    | none => []
  write ++ [⟨String.singleton clause.move.letter, some clause.next⟩]

/-- The last symbol that the entries of a transition write. -/
theorem lastWrite_clauseEntries (clause : Clause) :
    lastWrite (clauseEntries clause) = .ok clause.write := by
  cases write : clause.write with
  | none => simp [lastWrite, clauseEntries, write]
  | some symbol =>
      simp only [lastWrite, clauseEntries, write, List.cons_append, List.nil_append,
        List.foldlM_cons, moveOfWord?_letter, moveOfWord?_writeWord]
      rfl

/-- The entries of a transition make up what it does. -/
theorem actionOf_clauseEntries {clause : Clause} (named : clause.next ≠ "") :
    actionOf clause.state (clauseEntries clause) = .ok clause.action := by
  have oneMove : (clauseEntries clause).filter (fun entry => (moveOfWord? entry.name).isSome) =
      [⟨String.singleton clause.move.letter, some clause.next⟩] := by
    cases write : clause.write <;> simp [clauseEntries, write]
  simp only [actionOf, oneMove, moveOfWord?_letter, lastWrite_clauseEntries]
  simp [named, Clause.action]

/-- The action of a transition in braces, after which nothing comes. -/
theorem actionThen_clauseTokens {clause : Clause} (named : clause.next ≠ "") :
    actionThen clause.state ((clauseTokens clause).drop 2) = .ok (clause.action, []) := by
  have braced : bracedEntries ((clauseTokens clause).drop 2) = .ok (clauseEntries clause, []) := by
    cases write : clause.write <;> simp only [clauseTokens, clauseEntries, write] <;> rfl
  have opened : (clauseTokens clause).drop 2 = .mark .openBrace :: (clauseTokens clause).drop 3 :=
    rfl
  rw [opened] at braced ⊢
  simp only [actionThen, bareMove?, braced]
  change (actionOf clause.state (clauseEntries clause) >>= fun action => pure (action, [])) = _
  rw [actionOf_clauseEntries named]
  rfl

/-- The tokens of a transition are read as one in the block of its state. -/
theorem readTokens_clauseTokens {clause : Clause} (named : clause.next ≠ "") :
    readTokens (clauseTokens clause) (some clause.state) =
      .ok (.transition [clause.read] clause.action) := by
  have key : keyThen (clauseTokens clause) =
      .ok ([clause.read], false, .mark .colon :: (clauseTokens clause).drop 2) := rfl
  have colon : expectMark .colon (.mark .colon :: (clauseTokens clause).drop 2) =
      .ok ((clauseTokens clause).drop 2) := rfl
  have goesOn : ((clauseTokens clause).drop 2).isEmpty = false := rfl
  simp only [readTokens, key, bind, Except.bind, colon, goesOn, Bool.false_eq_true, if_false,
    actionThen_clauseTokens named]

/-- What a line says in a source. -/
def Statement.reading : Statement → Reading
  | .setting field value => .setting field value
  | .table => .ignored
  | .header state => .header state
  | .clause transition => .transition transition.state [transition.read] transition.action

/-- The line that announces the table says nothing. -/
theorem readContent_tableMarker (current : Option StateName) :
    readContent current tableMarker = .ignored := by
  simp [readContent]

/-- A text that begins otherwise does not announce the table. -/
theorem ne_tableMarker (differs : text.head? ≠ some 't') : text ≠ tableMarker := by
  rintro rfl
  exact differs (by decide)

/-- No line that begins with a quote is a setting or announces the table. -/
theorem readContent_quote {quote : Char} (opens : isQuote quote = true)
    (current : Option StateName) :
    readContent current (quote :: rest) = readBlockLine current (quote :: rest) := by
  have unset : setting? (quote :: rest) = none := by
    rcases isQuote_iff.mp opens with rfl | rfl <;> rfl
  have unmarked : quote :: rest ≠ tableMarker := by
    apply ne_tableMarker
    rcases isQuote_iff.mp opens with rfl | rfl <;> simp
  simp [readContent, unset, unmarked]

/-- A value in quotes is read alone. -/
theorem singleValue_quoted {value : String} (quoted : IsQuoted value written) :
    singleValue (' ' :: written) = .ok value := by
  have renders := renders_space (quoted.renders .done)
  rw [List.append_nil] at renders
  simp only [singleValue, tokenize, tokens?_of_renders renders]
  rfl

/-- The line of a setting is read as one. -/
theorem readContent_settingLine {field : Field} {value : String}
    (quoted : IsQuoted value written) (current : Option StateName) :
    readContent current (settingLine field written) = .setting field value := by
  have found : setting? (settingLine field written) = some (field, ' ' :: written) := by
    cases field <;> rfl
  have first : (settingLine field written).head? = field.words.head? := by
    cases field <;> rfl
  have nonempty : settingLine field written ≠ [] := by simp [settingLine]
  have unmarked : settingLine field written ≠ tableMarker := by
    apply ne_tableMarker
    rw [first]
    cases field <;> decide
  simp [readContent, nonempty, unmarked, found, singleValue_quoted quoted]

/-- The line that opens a block is read as one. -/
theorem readContent_headerLine {state : StateName} (quoted : IsQuoted state written)
    (current : Option StateName) :
    readContent current (headerLine written) = .header state := by
  have renders := renders_headerLine quoted
  obtain ⟨quote, opens, _, rfl⟩ := quoted
  simp only [headerLine, List.cons_append] at renders ⊢
  rw [readContent_quote opens, readBlockLine, readTableLine, tokenize, tokens?_of_renders renders]
  rfl

/-- The line of a transition is read as one in the block of its state. -/
theorem readContent_clauseLine {clause : Clause} (named : clause.next ≠ "")
    (shown : Statement.IsShownAs (.clause clause) text) :
    readContent (some clause.state) text =
      .transition clause.state [clause.read] clause.action := by
  have renders := renders_clauseLine shown
  have begins : ∃ quote others, isQuote quote = true ∧ text = quote :: others := by
    cases shown with
    | passing readQuoted _ | writing readQuoted _ _ =>
        obtain ⟨quote, opens, _, rfl⟩ := readQuoted
        exact ⟨quote, _, opens, rfl⟩
  obtain ⟨quote, others, opens, rfl⟩ := begins
  have read : readTableLine (quote :: others) (some clause.state) =
      .ok (.transition [clause.read] clause.action) := by
    simp only [readTableLine, tokenize, tokens?_of_renders renders]
    exact readTokens_clauseTokens named
  rw [readContent_quote opens, readBlockLine, read]

/-- A statement can stand in the block of a state: a transition only in that of its own, and
not without a next state. -/
def Statement.Fits (current : Option StateName) : Statement → Prop
  | .clause transition => current = some transition.state ∧ transition.next ≠ ""
  | _ => True

/-- A printed line is read as what it says. -/
theorem readContent_of_isShownAs {current : Option StateName} (shown : statement.IsShownAs text)
    (fits : statement.Fits current) : readContent current text = statement.reading := by
  cases statement with
  | setting field value =>
      cases shown with | setting valueQuoted => exact readContent_settingLine valueQuoted current
  | table =>
      cases shown
      exact readContent_tableMarker current
  | header state =>
      cases shown with | header stateQuoted => exact readContent_headerLine stateQuoted current
  | clause clause =>
      obtain ⟨rfl, named⟩ := fits
      exact readContent_clauseLine named shown

/-- The first of several printed lines is read as what it says, whatever its indentation. -/
theorem readLines_cons {current : Option StateName} {line : List Char} (isLine : statement.IsLine line)
    (fits : statement.Fits current) (number : Nat) (lines : List (List Char)) :
    readLines current (numberFrom number (line :: lines)) =
      ⟨number, String.ofList (trim line), statement.reading⟩ ::
        readLines (statement.reading.blockAfter current) (numberFrom (number + 1) lines) := by
  obtain ⟨indent, text, blank, _, shown, rfl⟩ := isLine
  have padded : Padded text (indent ++ text) := ⟨indent, [], blank, by simp [AllBlank], by simp⟩
  have trimmed : trim (indent ++ text) = text := trim_eq_of_padded padded (trim_of_isShownAs shown)
  simp only [numberFrom, readLines, trimmed, stripComment_of_isShownAs shown,
    readContent_of_isShownAs shown fits]

end TapeLab.Structured
