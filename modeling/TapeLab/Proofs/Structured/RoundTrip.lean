import TapeLab.Proofs.Structured.Declarations
import TapeLab.Proofs.Structured.Printing
import TapeLab.Source

/-!
# Printing and reading structured machines

Every machine that can be printed is read back from each of its prints.  Line by line, what
the transitions say is what their rules and keys are (`Structured.declare_clauseStatements`);
with the four lines at the top this adds up to the machine (`Structured.definition_ofLines`).
-/

namespace TapeLab.Structured

open TapeLab.Text

variable {blank : Symbol} {transition : Clause} {rules : List Rule}
  {keys : List (StateName × Symbol)} {lines : List SourceLine}

/-- The line of a transition without empty symbols, as it is read. -/
def Clause.sourceLine (transition : Clause) (number : Nat) (text : String) : SourceLine :=
  ⟨number, text, (Statement.clause transition).reading⟩

/-- The declaration of a transition without empty symbols. -/
theorem declarations_sourceLine (named : ∀ text ∈ transition.texts, text ≠ "") (blank : Symbol)
    (number : Nat) (text : String) :
    (transition.sourceLine number text).declarations blank =
      [⟨transition.state, transition.read, transition.action, number, text⟩] := by
  have visible : transition.read ≠ "" := named transition.read (by simp [Clause.texts])
  simp [Clause.sourceLine, SourceLine.declarations, Statement.reading, visible]

/-- The rule that a transition without empty symbols declares. -/
theorem rule_of_action (named : ∀ text ∈ transition.texts, text ≠ "") (blank : Symbol)
    (number : Nat) (text : String) :
    Declaration.rule blank ⟨transition.state, transition.read, transition.action, number, text⟩ =
      transition.rule number := by
  obtain ⟨state, read, write, move, next⟩ := transition
  cases write with
  | none => rfl
  | some symbol =>
      have visible : symbol ≠ "" := named symbol (by simp [Clause.texts])
      simp [Declaration.rule, Clause.action, Clause.rule, visible]

/-- Lines that declare rules for keys, and say nothing else. -/
structure Declare (blank : Symbol) (lines : List SourceLine) (rules : List Rule)
    (keys : List (StateName × Symbol)) : Prop where
  unset : ∀ line ∈ lines, ∀ field value, line.reading ≠ .setting field value
  faultless : ∀ line ∈ lines, line.problem? = none
  rules : (lines.flatMap (SourceLine.declarations blank)).map (Declaration.rule blank) = rules
  keys : (lines.flatMap (SourceLine.declarations blank)).map Declaration.key = keys

/-- No line declares nothing. -/
theorem Declare.nil : Declare blank [] [] [] :=
  ⟨by simp, by simp, rfl, rfl⟩

/-- The opening of a block declares nothing. -/
theorem Declare.header (later : Declare blank lines rules keys) (number : Nat) (text : String)
    (state : StateName) : Declare blank (⟨number, text, .header state⟩ :: lines) rules keys where
  unset := by simpa using later.unset
  faultless := by simpa [SourceLine.problem?] using later.faultless
  rules := by
    rw [List.flatMap_cons, List.map_append, later.rules]
    rfl
  keys := by
    rw [List.flatMap_cons, List.map_append, later.keys]
    rfl

/-- A transition without empty symbols declares its rule. -/
theorem Declare.clause (later : Declare blank lines rules keys)
    (named : ∀ text ∈ transition.texts, text ≠ "") (number : Nat) (text : String) :
    Declare blank (transition.sourceLine number text :: lines)
      (transition.rule number :: rules) (transition.key :: keys) where
  unset := by simpa [Clause.sourceLine, Statement.reading] using later.unset
  faultless := by
    simpa [Clause.sourceLine, Statement.reading, SourceLine.problem?] using later.faultless
  rules := by
    rw [List.flatMap_cons, List.map_append, later.rules, declarations_sourceLine named,
      List.map_singleton, rule_of_action named, List.singleton_append]
  keys := by
    rw [List.flatMap_cons, List.map_append, later.keys, declarations_sourceLine named]
    rfl

/-- The lines of transitions declare their rules. -/
theorem declare_clauseStatements {clauses : List Clause} {current : Option StateName}
    {texts : List (List Char)}
    (isLines : List.Forall₂ Statement.IsLine (clauseStatements current clauses) texts)
    (named : ∀ clause ∈ clauses, ∀ text ∈ clause.texts, text ≠ "") (number : Nat) :
    Declare blank (readLines current (numberFrom number texts))
      (clauseRules number current clauses) (clauses.map Clause.key) := by
  induction clauses generalizing current texts number with
  | nil =>
      cases isLines
      exact .nil
  | cons transition rest inductionHypothesis =>
      have namedFirst := named transition List.mem_cons_self
      have namedRest := fun other member => named other (List.mem_cons_of_mem transition member)
      have fits : Statement.Fits (some transition.state) (.clause transition) :=
        ⟨rfl, namedFirst _ (by simp [Clause.texts])⟩
      by_cases same : current = some transition.state
      · subst same
        simp only [clauseStatements, clauseRules, if_true] at isLines ⊢
        cases isLines with | cons isLine isLines =>
        rw [readLines_cons isLine fits]
        exact (inductionHypothesis isLines namedRest (number + 1)).clause namedFirst number _
      · simp only [clauseStatements, clauseRules, same, if_false] at isLines ⊢
        cases isLines with | cons isHeader isLines =>
        cases isLines with | cons isLine isLines =>
        rw [readLines_cons isHeader trivial, Statement.reading]
        apply Declare.header
        simp only [Reading.blockAfter]
        rw [readLines_cons isLine fits]
        exact (inductionHypothesis isLines namedRest (number + 2)).clause namedFirst (number + 1) _

/-- What was set before lines that declare rules counts after them. -/
theorem settingOf?_append {front : List SourceLine} (declare : Declare blank lines rules keys)
    (field : Field) : settingOf? field (front ++ lines) = settingOf? field front := by
  rw [settingOf?, settingOf?, List.filterMap_append]
  congr 1
  rw [List.append_right_eq_self, List.filterMap_eq_nil_iff]
  intro line member
  cases reading : line.reading with
  | setting set value => exact absurd reading (declare.unset line member set value)
  | ignored | header | transition | faulty => rfl

/-- The four lines at the top of a print, as they are read. -/
def topLines (blueprint : Blueprint) (first second third fourth : String) : List SourceLine :=
  [⟨1, first, .setting .input blueprint.input⟩, ⟨2, second, .setting .blank blueprint.blank⟩,
    ⟨3, third, .setting .start blueprint.start⟩, ⟨4, fourth, .ignored⟩]

/-- The lines of a print add up to its machine. -/
theorem definition_ofLines {blueprint : Blueprint} (writable : blueprint.Writable)
    (declare : Declare blueprint.blank lines (clauseRules 5 none blueprint.clauses)
      (blueprint.clauses.map Clause.key)) (first second third fourth : String) :
    (Document.ofLines (topLines blueprint first second third fourth ++ lines)).definition =
      blueprint.definition := by
  have settings := @settingOf?_append _ _ _ _ (topLines blueprint first second third fourth) declare
  have input : settingOf? .input (topLines blueprint first second third fourth) =
      some blueprint.input := rfl
  have blank : settingOf? .blank (topLines blueprint first second third fourth) =
      some blueprint.blank := rfl
  have start : settingOf? .start (topLines blueprint first second third fourth) =
      some blueprint.start := rfl
  have declarations : (topLines blueprint first second third fourth ++ lines).flatMap
      (SourceLine.declarations blueprint.blank) =
        lines.flatMap (SourceLine.declarations blueprint.blank) := rfl
  have faultless : (topLines blueprint first second third fourth ++ lines).filterMap
      SourceLine.problem? = [] := by
    rw [List.filterMap_append, List.filterMap_eq_nil_iff.mpr declare.faultless]
    rfl
  obtain ⟨kept, noRepeats⟩ := firstsOf_of_nodup (declare.keys ▸ writable.distinct)
    (fun _ _ => List.not_mem_nil)
  have grouped : Grouped ((lines.flatMap (SourceLine.declarations blueprint.blank)).map
      Declaration.state) := by
    have states := congrArg (List.map Prod.fst) declare.keys
    rw [List.map_map, List.map_map] at states
    exact states ▸ writable.grouped
  simp only [Document.ofLines, Document.definition, Document.rules, Blueprint.definition, settings,
    input, blank, start, Option.getD_some, declarations, kept, noRepeats, faultless,
    rules_of_grouped blueprint.blank grouped, declare.rules, List.map_nil, List.append_nil,
    List.mergeSort_nil]

/-- The names and symbols of a transition are names of its machine. -/
theorem Blueprint.mem_names {blueprint : Blueprint} {clause : Clause} {text : String}
    (isClause : clause ∈ blueprint.clauses) (isText : text ∈ clause.texts) :
    text ∈ blueprint.names := by
  have member : text ∈ blueprint.clauses.flatMap Clause.texts :=
    List.mem_flatMap.mpr ⟨clause, isClause, isText⟩
  simp [names, member]

/-- The names and symbols on a line of transitions are those of a transition. -/
theorem texts_of_mem_clauseStatements {clauses : List Clause} {current : Option StateName}
    {statement : Statement} (member : statement ∈ clauseStatements current clauses) :
    ∃ clause ∈ clauses, ∀ text ∈ statement.texts, text ∈ clause.texts := by
  induction clauses generalizing current with
  | nil => simp [clauseStatements] at member
  | cons clause rest inductionHypothesis =>
      have stands : statement = .header clause.state ∨ statement = .clause clause ∨
          statement ∈ clauseStatements (some clause.state) rest := by
        unfold clauseStatements at member
        split at member
        · exact .inr (by simpa using member)
        · simpa using member
      rcases stands with rfl | rfl | later
      · exact ⟨clause, List.mem_cons_self, by simp [Statement.texts, Clause.texts]⟩
      · exact ⟨clause, List.mem_cons_self, fun _ isText => isText⟩
      · obtain ⟨other, isRest, texts⟩ := inductionHypothesis later
        exact ⟨other, List.mem_cons_of_mem clause isRest, texts⟩

/-- The names and symbols on a line are those of its machine. -/
theorem texts_of_mem_statements {blueprint : Blueprint} {statement : Statement}
    (member : statement ∈ blueprint.statements) :
    ∀ text ∈ statement.texts, text ∈ blueprint.input :: blueprint.names := by
  intro text isText
  rcases List.mem_append.mp member with atTop | below
  · simp only [List.mem_cons, List.not_mem_nil, or_false] at atTop
    rcases atTop with rfl | rfl | rfl | rfl <;> simp_all [Statement.texts, Blueprint.names]
  · obtain ⟨clause, isClause, texts⟩ := texts_of_mem_clauseStatements below
    exact List.mem_cons_of_mem _ (Blueprint.mem_names isClause (texts text isText))

/-- The lines of a print. -/
theorem lines_of_isLines {blueprint : Blueprint} (writable : blueprint.Writable)
    {texts : List (List Char)} {ending : List Char}
    (isLines : List.Forall₂ Statement.IsLine blueprint.statements texts)
    (ended : ending = [] ∨ ending = ['\n']) :
    Text.lines (['\n'].intercalate texts ++ ending) = texts := by
  apply lines_intercalate _ _ ended
  · rintro rfl
    cases isLines
  · intro line member
    obtain ⟨statement, isStatement, isLine⟩ : ∃ statement ∈ blueprint.statements,
        statement.IsLine line := by
      obtain ⟨sameLength, each⟩ := List.forall₂_iff_get.mp isLines
      obtain ⟨index, inTexts, rfl⟩ := List.mem_iff_getElem.mp member
      exact ⟨_, List.get_mem _ ⟨index, sameLength ▸ inTexts⟩, each index _ inTexts⟩
    exact isLine.unbroken fun text isText =>
      writable.unbroken text (texts_of_mem_statements isStatement text isText)

/-- The source lines of a print. -/
theorem exists_sourceLines {blueprint : Blueprint} (writable : blueprint.Writable)
    {source : String} (written : blueprint.IsWrittenAs source) :
    ∃ first second third fourth lines,
      sourceLines source = topLines blueprint first second third fourth ++ lines ∧
        Declare blueprint.blank lines (clauseRules 5 none blueprint.clauses)
          (blueprint.clauses.map Clause.key) := by
  obtain ⟨texts, ending, isLines, ended, same⟩ := written
  rw [sourceLines, same, lines_of_isLines writable isLines ended]
  cases isLines with | cons inputLine isLines =>
  cases isLines with | cons blankLine isLines =>
  cases isLines with | cons startLine isLines =>
  cases isLines with | cons tableLine isLines =>
  rw [readLines_cons inputLine trivial, readLines_cons blankLine trivial,
    readLines_cons startLine trivial, readLines_cons tableLine trivial]
  exact ⟨_, _, _, _, _, rfl, declare_clauseStatements isLines
    (fun _ isClause text isText => writable.named text (Blueprint.mem_names isClause isText)) 5⟩

/-- A piece is found behind any text. -/
theorem occursIn_append {piece : List Char} (nonempty : piece ≠ []) (front rest : List Char) :
    Source.occursIn piece (front ++ (piece ++ rest)) = true := by
  induction front with
  | nil =>
      obtain ⟨c, letters, rfl⟩ := List.exists_cons_of_ne_nil nonempty
      simp [Source.occursIn]
  | cons c front inductionHypothesis =>
      simp [Source.occursIn, inductionHypothesis]

/-- A print is known to be a structured source. -/
theorem dialectOf_of_isWrittenAs {blueprint : Blueprint} {source : String}
    (written : blueprint.IsWrittenAs source) : Source.dialectOf source = .structured := by
  obtain ⟨texts, ending, isLines, _, same⟩ := written
  cases isLines with | cons inputLine isLines =>
  cases isLines with | cons blankLine isLines =>
  obtain ⟨indent, text, _, _, shown, rfl⟩ := inputLine
  cases shown with | @setting _ _ valueText _ =>
  have marked : settingLine .input valueText = "input:".toList ++ ' ' :: valueText := by
    have words : "input:".toList = Field.input.words ++ [':'] := by decide
    rw [words, settingLine, List.append_assoc]
    rfl
  have found : Source.occursIn "input:".toList source.toList = true := by
    rw [same, List.intercalate_cons_cons, marked, List.append_assoc, List.append_assoc,
      List.append_assoc, List.append_assoc]
    exact occursIn_append (by decide) indent _
  have isMarker : "input:" ∈ Source.structuredMarkers :=
    List.mem_cons_of_mem _ (List.mem_cons_of_mem _ List.mem_cons_self)
  exact if_pos (List.any_eq_true.mpr ⟨"input:", isMarker, found⟩)

/-- The printer quotes every text that lacks a quote. -/
theorem isQuoted_inQuotes {text : String} (lacks : '"' ∉ text.toList ∨ '\'' ∉ text.toList) :
    IsQuoted text (inQuotes text) := by
  by_cases double : '"' ∈ text.toList
  · refine ⟨'\'', by decide, lacks.resolve_left (not_not.mpr double), ?_⟩
    simp [inQuotes, double]
  · exact ⟨'"', by decide, double, by simp [inQuotes, double]⟩

/-- The printer shows every statement whose texts can be quoted. -/
theorem isShownAs_text {statement : Statement}
    (lacks : ∀ text ∈ statement.texts, '"' ∉ text.toList ∨ '\'' ∉ text.toList) :
    statement.IsShownAs statement.text := by
  have quoted (text : String) (isText : text ∈ statement.texts) : IsQuoted text (inQuotes text) :=
    isQuoted_inQuotes (lacks text isText)
  cases statement with
  | setting field value => exact .setting (quoted value (by simp [Statement.texts]))
  | table => exact .table
  | header state => exact .header (quoted state (by simp [Statement.texts]))
  | clause transition =>
      obtain ⟨state, read, write, move, next⟩ := transition
      have readQuoted := quoted read (by simp [Statement.texts, Clause.texts])
      have nextQuoted := quoted next (by simp [Statement.texts, Clause.texts])
      cases write with
      | none => exact .passing readQuoted nextQuoted
      | some symbol =>
          exact .writing readQuoted (quoted symbol (by simp [Statement.texts, Clause.texts]))
            nextQuoted

/-- What the printer makes of a machine is a print of it, whatever blanks it puts before the
lines. -/
theorem isWrittenAs_print {blueprint : Blueprint} (writable : blueprint.Writable)
    {indent : Nat → List Char} (blank : ∀ index, AllBlank (indent index) ∧ Unbroken (indent index)) :
    blueprint.IsWrittenAs (blueprint.print indent) := by
  refine ⟨_, ['\n'], ?_, .inr rfl, String.toList_ofList⟩
  rw [List.forall₂_iff_get]
  refine ⟨by simp, fun index inStatements _ => ?_⟩
  have isStatement : blueprint.statements[index] ∈ blueprint.statements := List.getElem_mem _
  simp only [List.get_eq_getElem, List.getElem_mapIdx]
  exact ⟨indent index, _, (blank index).1, (blank index).2, isShownAs_text fun text isText =>
    writable.quotable text (texts_of_mem_statements isStatement text isText), rfl⟩

/-- Every machine that can be printed is read back from each of its prints, of which the
printer makes one. -/
theorem read_blueprint (blueprint : Blueprint) (writable : blueprint.Writable) :
    (∀ indent : Nat → List Char,
      (∀ index, AllBlank (indent index) ∧ Unbroken (indent index)) →
        blueprint.IsWrittenAs (blueprint.print indent)) ∧
    ∀ source, blueprint.IsWrittenAs source → Source.read source = blueprint.definition := by
  refine ⟨fun indent blank => isWrittenAs_print writable blank, fun source written => ?_⟩
  obtain ⟨first, second, third, fourth, lines, cut, declare⟩ := exists_sourceLines writable written
  rw [Source.read, Option.getD_none, dialectOf_of_isWrittenAs written]
  change (Document.ofLines (sourceLines source)).definition = blueprint.definition
  rw [cut, definition_ofLines writable declare]

/-- A machine whose names and symbols look like everything else in a source. -/
def quirkyBlueprint : Blueprint where
  input := "# \"1\""
  blank := " "
  start := "table:"
  clauses := [
    { state := "table:", read := "#", write := some "'", move := .right, next := "L: \x7bR\x7d" },
    { state := "table:", read := " ", write := none, move := .left, next := "input: x" },
    { state := "L: \x7bR\x7d", read := "\"", write := some "write", move := .stay, next := "[,]" }]

/-- A machine whose names and symbols are read back from their quotes. -/
theorem read_blueprint_quirky :
    quirkyBlueprint.Writable ∧ quirkyBlueprint.IsWrittenAs (quirkyBlueprint.print fun _ => ['\t']) ∧
      Source.read (quirkyBlueprint.print fun _ => ['\t']) = quirkyBlueprint.definition := by
  have writable : quirkyBlueprint.Writable :=
    { named := by decide
      unbroken := by decide
      quotable := by decide
      distinct := by decide
      grouped := by decide }
  have blank : ∀ _ : Nat, AllBlank ['\t'] ∧ Unbroken ['\t'] := by
    simp [AllBlank, isBlank, Unbroken, isLineBreak]
  obtain ⟨writes, reads⟩ := read_blueprint quirkyBlueprint writable
  exact ⟨writable, writes _ blank, reads _ (writes _ blank)⟩

end TapeLab.Structured
