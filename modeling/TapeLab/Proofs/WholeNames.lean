import TapeLab.Proofs.Classic.RoundTrip
import TapeLab.Proofs.Machine.Unbroken
import TapeLab.Proofs.Structured.Comment
import TapeLab.Proofs.Structured.Grammar
import TapeLab.Proofs.WellFormed

/-!
# No line ends in a name that is read

A source is read line by line, and what it names is taken from a line piece by piece: a field or a
token is made up of characters that stand there.  So no line ends in a name of a machine that is
read from a source of either notation (`Source.unbroken_read`), while a machine that is put
together otherwise may have any text for a name.
-/

namespace TapeLab

open TapeLab.Text Fallible

namespace Classic

/-- No line ends in a name of the machine of a classic source. -/
theorem unbroken_read (source : String) : (read source).Unbroken where
  start := by
    rw [show (read source).start = startState from rfl]
    decide +kernel
  blank := by
    rw [show (read source).blank = defaultBlank from rfl]
    decide +kernel
  tape cell member := by
    obtain ⟨c, visible, rfl⟩ := (tape_read source).2 cell member
    rw [String.toList_singleton]
    exact unbroken_of_visible (List.forall_mem_singleton.mpr visible)
  rules rule member := by
    obtain ⟨content, whole, declares⟩ := exists_declares_of_mem_rules member
    obtain ⟨-, -, next, write⟩ := declares.isRuleLine.standsIn
    exact ⟨fun c inside => whole c (next.mem inside), fun c inside => whole c (write.mem inside)⟩

end Classic

namespace Structured

/-! ### Tokens -/

section Tokens

variable {tokens others : List Token} {symbols : List Symbol} {entries : List Entry}
  {state : StateName} {action : Action} {text before after : List Char} {name : String}

/-- One of some tokens names a text. -/
def Named (tokens : List Token) (name : String) : Prop :=
  ∃ token ∈ tokens, token.symbol? = some name

theorem Named.mono (named : Named tokens name) (among : tokens ⊆ others) : Named others name := by
  obtain ⟨token, member, names⟩ := named
  exact ⟨token, among member, names⟩

theorem named_cons {token : Token} :
    Named (token :: tokens) name ↔ token.symbol? = some name ∨ Named tokens name := by
  simp [Named]

/-- A text is cut at the character that was sought. -/
theorem eq_of_splitAtChar? {stop : Char} (found : splitAtChar? stop text = some (before, after)) :
    text = before ++ stop :: after := by
  induction text generalizing before with
  | nil => cases found
  | cons c rest inductionHypothesis =>
      rw [splitAtChar?] at found
      split at found
      · next stops =>
        obtain rfl := beq_iff_eq.mp stops
        cases found
        rfl
      · obtain ⟨parts, partsFound, same⟩ := Option.map_eq_some_iff.mp found
        cases same
        rw [List.cons_append, ← inductionHypothesis partsFound]

/-- What the tokens of a text name is made up of characters of the text. -/
theorem subset_of_tokens? (cut : tokens? text = some tokens) (named : Named tokens name) :
    name.toList ⊆ text := by
  fun_induction tokens? text generalizing tokens with
  | case1 =>
      cases cut
      obtain ⟨token, member, -⟩ := named
      cases member
  | case2 c rest white inductionHypothesis =>
      exact List.subset_cons_of_subset c (inductionHypothesis cut named)
  | case3 c rest visible sign isMark inductionHypothesis =>
      obtain ⟨later, cutLater, rfl⟩ := Option.map_eq_some_iff.mp cut
      have nameless : (Token.mark sign).symbol? ≠ some name := by simp [Token.symbol?]
      have namedLater : Named later name := (named_cons.mp named).resolve_left nameless
      exact List.subset_cons_of_subset c (inductionHypothesis cutLater namedLater)
  | case4 c rest visible unmarked quotes unclosed => cases cut
  | case5 c rest visible unmarked quotes body after found inductionHypothesis =>
      obtain ⟨later, cutLater, rfl⟩ := Option.map_eq_some_iff.mp cut
      rw [eq_of_splitAtChar? found]
      refine List.subset_cons_of_subset c ?_
      rcases named_cons.mp named with names | namedLater
      · obtain rfl := Option.some.inj names
        rw [String.toList_ofList]
        exact List.subset_append_left _ _
      · have inAfter := inductionHypothesis cutLater namedLater
        exact List.subset_append_of_subset_right _ (List.subset_cons_of_subset c inAfter)
  | case6 c rest visible unmarked unquoted inductionHypothesis =>
      obtain ⟨later, cutLater, rfl⟩ := Option.map_eq_some_iff.mp cut
      rcases named_cons.mp named with names | namedLater
      · obtain rfl := Option.some.inj names
        rw [String.toList_ofList]
        exact List.cons_subset_cons c (List.takeWhile_subset _)
      · have inRest := List.Subset.trans (inductionHypothesis cutLater namedLater)
          (List.dropWhile_subset _)
        exact List.subset_cons_of_subset c inRest

/-- The tokens of a list of symbols name the symbols. -/
theorem SymbolList.named (list : SymbolList tokens symbols) {symbol : Symbol}
    (member : symbol ∈ symbols) : Named tokens symbol := by
  induction list with
  | last names =>
      obtain rfl := List.mem_singleton.mp member
      exact named_cons.mpr (.inl names)
  | more names later inductionHypothesis =>
      rcases List.mem_cons.mp member with rfl | isLater
      · exact named_cons.mpr (.inl names)
      · exact named_cons.mpr (.inr (named_cons.mpr (.inr (inductionHypothesis isLater))))

/-- The tokens of a key name its symbols. -/
theorem IsKey.named (isKey : IsKey tokens symbols) {symbol : Symbol}
    (member : symbol ∈ symbols) : Named tokens symbol := by
  cases isKey with
  | single names =>
      obtain rfl := List.mem_singleton.mp member
      exact named_cons.mpr (.inl names)
  | listed list =>
      exact (list.named member).mono
        (List.subset_cons_of_subset _ (List.subset_append_left _ _))

/-- The tokens of an entry name its value. -/
theorem IsEntry.named {entry : Entry} (isEntry : IsEntry tokens entry) {value : Symbol}
    (valued : entry.value = some value) : Named tokens value := by
  cases isEntry with
  | bare => cases valued
  | valued entryName names =>
      cases valued
      exact ⟨_, by simp, names⟩

/-- The tokens of entries name their values. -/
theorem EntryList.named (list : EntryList tokens entries) {entry : Entry} (member : entry ∈ entries)
    {value : Symbol} (valued : entry.value = some value) : Named tokens value := by
  induction list with
  | last single =>
      obtain rfl := List.mem_singleton.mp member
      exact single.named valued
  | more first later inductionHypothesis =>
      rcases List.mem_cons.mp member with rfl | isLater
      · exact (first.named valued).mono (List.subset_append_left _ _)
      · exact (inductionHypothesis isLater).mono
          (List.subset_append_of_subset_right _ (List.subset_cons_self _ _))

/-- The tokens of an action name what it writes and where it leads, unless it stays in its state. -/
theorem IsAction.named (isAction : IsAction state tokens action) :
    (action.next = state ∨ Named tokens action.next) ∧
      ∀ symbol, action.write = some symbol → Named tokens symbol := by
  cases isAction with
  | bare => exact ⟨.inl rfl, nofun⟩
  | @braced tokens entries action list makes =>
      have among : tokens ⊆ .mark .openBrace :: tokens ++ [.mark .closeBrace] :=
        List.subset_cons_of_subset _ (List.subset_append_left _ _)
      obtain ⟨⟨before, entry, after, rfl, -, -, next⟩, -, write⟩ := makes
      refine ⟨?_, fun symbol writes => ?_⟩
      · cases leads : entry.value.filter fun next => !next.isEmpty with
        | none => exact .inl (by rw [next, leads, Option.getD_none])
        | some value =>
            rw [next, leads, Option.getD_some]
            exact .inr ((list.named (by simp) (Option.filter_eq_some_iff.mp leads).1).mono among)
      · rw [write] at writes
        obtain ⟨last, isLast, valued⟩ := Option.bind_eq_some_iff.mp writes
        have member := List.mem_of_mem_filter (List.mem_of_getLast? isLast)
        exact (list.named member valued).mono among

end Tokens

/-! ### Lines -/

section Lines

variable {current : Option StateName} {content text : List Char} {name value : String}
  {field : Field} {lines : List SourceLine}

/-- What a reading names: the value of a setting, or the states and symbols of a table line. -/
def Reading.names : Reading → List String
  | .ignored | .faulty _ => []
  | .setting _ value => [value]
  | .header state => [state]
  | .transition state symbols action => state :: action.next :: (action.write.toList ++ symbols)

/-- What follows a front of a text stands at its end. -/
theorem suffix_of_dropFront? {front rest : List Char} (found : dropFront? front text = some rest) :
    rest <:+ text := by
  induction front generalizing text with
  | nil =>
      rw [dropFront?] at found
      exact Option.some.inj found ▸ List.suffix_refl text
  | cons c front inductionHypothesis =>
      cases text with
      | nil => cases found
      | cons d text =>
          rw [dropFront?] at found
          split at found
          · exact (inductionHypothesis found).trans (List.suffix_cons d text)
          · cases found

/-- The text of a setting stands at the end of its line. -/
theorem suffix_of_setting? (found : setting? content = some (field, text)) : text <:+ content := by
  obtain ⟨sought, -, isSetting⟩ := List.exists_of_findSome?_eq_some found
  obtain ⟨rest, isText, same⟩ := Option.map_eq_some_iff.mp isSetting
  obtain ⟨-, rfl⟩ := Prod.mk.inj same
  rw [settingText?] at isText
  split at isText
  · cases isText
  · next afterWords dropped =>
    split at isText
    · cases isText
    · next c value trimmed =>
      split at isText
      · cases isText
        obtain ⟨blanks, -, cut⟩ := exists_trimStart afterWords
        rw [trimmed] at cut
        exact ((List.suffix_cons c _).trans ⟨blanks, cut.symm⟩).trans (suffix_of_dropFront? dropped)
      · cases isText

/-- The tokens of a text are what it is cut into. -/
theorem tokenize_eq_ok_iff {tokens : List Token} :
    tokenize text = .ok tokens ↔ tokens? text = some tokens := by
  rw [tokenize]
  split
  · next found => simp [found]
  · next unclosed => simp [unclosed]

/-- The value of a text that is one is made up of its characters. -/
theorem subset_of_singleValue (single : singleValue text = .ok value) : value.toList ⊆ text := by
  obtain ⟨tokens, cut, isValue⟩ := bind_eq_ok_iff.mp single
  refine subset_of_tokens? (tokenize_eq_ok_iff.mp cut) ?_
  split at isValue
  · cases isValue
    exact named_cons.mpr (.inl rfl)
  · cases isValue
    exact named_cons.mpr (.inl rfl)
  · cases isValue

/-- What a table line names is made up of its characters, or is the state whose block is open. -/
theorem subset_of_readBlockLine (named : name ∈ (readBlockLine current content).names) :
    name.toList ⊆ content ∨ current = some name := by
  rw [readBlockLine] at named
  split at named
  · cases named
  · next state read =>
    obtain ⟨tokens, cut, readLine⟩ := bind_eq_ok_iff.mp read
    cases readTokens_eq_ok_iff.mp readLine with
    | header names =>
        obtain rfl := List.mem_singleton.mp named
        exact .inl (subset_of_tokens? (tokenize_eq_ok_iff.mp cut) (named_cons.mpr (.inl names)))
  · next symbols action read =>
    obtain ⟨tokens, cut, readLine⟩ := bind_eq_ok_iff.mp read
    have inLine {name : String} {part : List Token} (names : Named part name)
        (among : part ⊆ tokens) : name.toList ⊆ content :=
      subset_of_tokens? (tokenize_eq_ok_iff.mp cut) (names.mono among)
    cases readTokens_eq_ok_iff.mp readLine with
    | transition isKey isAction =>
        obtain ⟨next, write⟩ := isAction.named
        rcases List.mem_cons.mp named with rfl | named
        · exact .inr rfl
        rcases List.mem_cons.mp named with rfl | named
        · rcases next with stays | leads
          · exact .inr (congrArg some stays.symm)
          · exact .inl (inLine leads (by simp))
        rcases List.mem_append.mp named with writes | isSymbol
        · exact .inl (inLine (write name (Option.mem_toList.mp writes)) (by simp))
        · exact .inl (inLine (isKey.named isSymbol) (by simp))

/-- What a line names is made up of its characters, or is the state whose block is open. -/
theorem subset_of_readContent (named : name ∈ (readContent current content).names) :
    name.toList ⊆ content ∨ current = some name := by
  rw [readContent] at named
  split at named
  · cases named
  · split at named
    · next field text isSetting =>
      split at named
      · next value single =>
        obtain rfl := List.mem_singleton.mp named
        exact .inl (List.Subset.trans (subset_of_singleValue single)
          (suffix_of_setting? isSetting).subset)
      · cases named
    · exact subset_of_readBlockLine named

/-- No line ends in what lines name that are read in a block in whose name none ends. -/
theorem unbroken_of_mem_readLines {numbered : List (Nat × List Char)}
    (whole : ∀ part ∈ numbered, Unbroken part.2) (opened : ∀ state ∈ current, Unbroken state.toList)
    {line : SourceLine} (member : line ∈ readLines current numbered)
    (named : name ∈ line.reading.names) : Unbroken name.toList := by
  induction numbered generalizing current with
  | nil => cases member
  | cons part later inductionHypothesis =>
      obtain ⟨number, raw⟩ := part
      have names {name : String} (named : name ∈
          (readContent current (stripComment (trim raw))).names) : Unbroken name.toList := by
        rcases subset_of_readContent named with inLine | isCurrent
        · exact fun c inside => whole _ List.mem_cons_self c
            (mem_of_mem_trim ((stripComment_begins _).subset (inLine inside)))
        · exact opened name isCurrent
      rcases List.mem_cons.mp member with rfl | isLater
      · exact names named
      · refine inductionHypothesis (fun part isPart => whole part (List.mem_cons_of_mem _ isPart))
          (fun state opens => ?_) isLater
        cases reading : readContent current (stripComment (trim raw)) with
        | header first =>
            rw [reading] at opens
            obtain rfl := Option.some.inj opens
            exact names (by simp [reading, Reading.names])
        | ignored | setting | transition | faulty =>
            rw [reading] at opens
            exact opened state opens

/-! ### Machines -/

/-- The value of a setting is named by a line. -/
theorem exists_of_settingOf? (set : settingOf? field lines = some value) :
    ∃ line ∈ lines, value ∈ line.reading.names := by
  obtain ⟨line, isLine, sets⟩ := List.mem_filterMap.mp (List.mem_of_getLast? set)
  refine ⟨line, isLine, ?_⟩
  split at sets
  · next same =>
    split at sets
    · cases sets
      simp [same, Reading.names]
    · cases sets
  · cases sets

/-- A state whose block is opened is named by a line. -/
theorem exists_of_mem_headerStates {state : StateName} (member : state ∈ headerStates lines) :
    ∃ line ∈ lines, state ∈ line.reading.names := by
  obtain ⟨line, isLine, opens⟩ := List.mem_filterMap.mp (List.mem_eraseDups.mp member)
  refine ⟨line, isLine, ?_⟩
  split at opens
  · next same =>
    cases opens
    simp [same, Reading.names]
  · cases opens

end Lines

/-- No line ends in what the lines of a source name. -/
theorem unbroken_of_mem_sourceLines {source : String} {line : SourceLine}
    (member : line ∈ sourceLines source) : ∀ name ∈ line.reading.names, Unbroken name.toList :=
  fun _ => unbroken_of_mem_readLines
    (fun _ isPart => unbroken_of_mem_lines (mem_of_mem_numberFrom isPart)) (by simp) member

section Read

variable (source : String)

/-- No line ends in the value of a setting, given or by default. -/
theorem unbroken_settingOf? (field : Field) {default : String}
    (whole : Unbroken default.toList) :
    Unbroken ((settingOf? field (sourceLines source)).getD default).toList := by
  cases set : settingOf? field (sourceLines source) with
  | none => exact whole
  | some value =>
      obtain ⟨line, isLine, named⟩ := exists_of_settingOf? set
      exact unbroken_of_mem_sourceLines isLine value named

/-- No line ends in the blank of the machine of a structured source. -/
theorem unbroken_blank : Unbroken (read source).blank.toList :=
  unbroken_settingOf? source .blank (by decide +kernel)

/-- No line ends in the state in which the machine of a structured source starts. -/
theorem unbroken_start : Unbroken (read source).start.toList := by
  refine unbroken_settingOf? source .start ?_
  cases first : (headerStates (sourceLines source)).head? with
  | none => decide +kernel
  | some state =>
      obtain ⟨line, isLine, named⟩ := exists_of_mem_headerStates (List.mem_of_head? first)
      exact unbroken_of_mem_sourceLines isLine state named

/-- No line ends in a cell of the tape of the machine of a structured source. -/
theorem unbroken_of_mem_tape : ∀ cell ∈ (read source).tape, Unbroken cell.toList := by
  simp only [read, Document.definition]
  split
  · decide +kernel
  · intro cell member
    obtain ⟨c, inside, rfl⟩ := List.mem_map.mp member
    rw [String.toList_singleton]
    exact List.forall_mem_singleton.mpr (unbroken_settingOf? source .input (by decide) c inside)

/-- No line ends in what a declaration of a structured source leads to, or in what it writes. -/
theorem unbroken_of_mem_declarationsOf {declaration : Declaration}
    (member : declaration ∈ declarationsOf source) :
    Unbroken (declaration.rule (read source).blank).next.toList ∧
      Unbroken (declaration.rule (read source).blank).write.toList := by
  obtain ⟨line, isLine, declares⟩ := List.mem_flatMap.mp member
  have whole := unbroken_of_mem_sourceLines isLine
  rw [SourceLine.declarations] at declares
  split at declares
  · next state symbols action reading =>
    obtain ⟨symbol, isSymbol, rfl⟩ := List.mem_map.mp declares
    rw [reading] at whole
    have orBlank {symbol : Symbol}
        (named : symbol ∈ (Reading.transition state symbols action).names) :
        Unbroken (if symbol.isEmpty then (read source).blank else symbol).toList := by
      split
      · exact unbroken_blank source
      · exact whole symbol named
    have next : Unbroken action.next.toList := whole action.next (by simp [Reading.names])
    refine ⟨next, ?_⟩
    rw [Declaration.rule]
    cases writes : action.write with
    | none => exact orBlank (by simp [Reading.names, isSymbol])
    | some written => exact orBlank (by simp [Reading.names, writes])
  · cases declares

/-- No line ends in a name of the machine of a structured source. -/
theorem unbroken_read : (read source).Unbroken where
  start := unbroken_start source
  blank := unbroken_blank source
  tape := unbroken_of_mem_tape source
  rules rule member := by
    obtain ⟨declaration, declared, rfl⟩ := exists_declaration_of_mem_rules member
    exact unbroken_of_mem_declarationsOf source declared

end Read

end Structured

namespace Source

/-- No line ends in a name of a machine that is read, in the notation given or in the one that its
source is written in. -/
theorem unbroken_read (source : String) (dialect : Option Dialect) :
    (read source dialect).Unbroken := by
  rw [read]
  cases dialect.getD (dialectOf source) with
  | classic => exact Classic.unbroken_read source
  | structured => exact Structured.unbroken_read source

end Source

end TapeLab
