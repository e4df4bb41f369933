import TapeLab.Proofs.Classic.Fields
import TapeLab.Proofs.Conversion
import TapeLab.Proofs.Structured.Accounting

/-!
# Machines that are read are well formed

Whatever text a machine is read from and in whichever notation, the rest of the laboratory can
rely on its shape: it has a tape of single characters, so it never begins on the blank cell of
an empty tape, and everything in it names a line of its source.  A classic machine has at most
one rule or problem for each line, and a structured one at most one rule for each state and
symbol.  `Definition.WellFormed` collects this, and `Source.read_wellFormed` proves it of every
machine that is read.
-/

namespace TapeLab

open TapeLab.Text

/-- What only the machines of the classic notation are like. -/
structure Definition.ClassicForm (machine : Definition) : Prop where
  /-- No rule passes over its cell. -/
  writing : ∀ rule ∈ machine.rules, rule.passthrough = false
  /-- The rules are in the order of their lines, and no line declares two. -/
  increasing : machine.rules.Pairwise fun before after =>
    ∃ first ∈ before.line, ∃ second ∈ after.line, first < second
  /-- A line that declares a rule is no problem. -/
  apart : ∀ rule ∈ machine.rules, ∀ problem ∈ machine.problems, rule.line ≠ some problem.line
  /-- The states and symbols of a rule can stand between commas and arrows. -/
  fields : ∀ rule ∈ machine.rules, Classic.HasFields rule

/-- What the machine of a source with some number of lines is like. -/
structure Definition.WellFormed (lineCount : Nat) (machine : Definition) : Prop where
  /-- There is a tape. -/
  tape : machine.tape ≠ []
  /-- Each cell of the tape is one character. -/
  cells : ∀ cell ∈ machine.tape, cell.length = 1
  /-- The machine begins on its tape. -/
  begins : machine.initial.tape.toList = machine.tape
  /-- Each rule was declared on a line of the source. -/
  ruleLines : ∀ rule ∈ machine.rules, ∃ number ∈ rule.line, 1 ≤ number ∧ number ≤ lineCount
  /-- Each problem is on a line of the source. -/
  problemLines : ∀ problem ∈ machine.problems, 1 ≤ problem.line ∧ problem.line ≤ lineCount
  /-- The problems are in the order of their lines. -/
  ordered : machine.problems.Pairwise fun before after => before.line ≤ after.line
  /-- A rule that passes over its cell is declared to write what it reads. -/
  keeps : ∀ rule ∈ machine.rules, rule.Keeps
  /-- A machine of the classic notation has the form of one. -/
  classic : machine.dialect = .classic → machine.ClassicForm
  /-- No two rules of a structured machine are for the same state and symbol. -/
  structured : machine.dialect = .structured → (machine.rules.map Rule.key).Nodup

/-- A machine with a tape begins on it. -/
theorem Definition.toList_tape_initial {machine : Definition} (tape : machine.tape ≠ []) :
    machine.initial.tape.toList = machine.tape := by
  simp [Definition.initial, tape]

/-- A text cut into its characters has cells of one character. -/
theorem length_of_mem_singletons {text : List Char} {cell : Symbol}
    (member : cell ∈ text.map String.singleton) : cell.length = 1 := by
  obtain ⟨c, -, rfl⟩ := List.mem_map.mp member
  exact String.length_singleton

/-- The default tape has cells of one character. -/
theorem length_of_mem_defaultTape : ∀ cell ∈ defaultTape, cell.length = 1 := by
  decide

/-- The lines of a source are numbered from one up to their count. -/
theorem number_of_mem_numberFrom {source : String} {number : Nat} {raw : List Char}
    (numbered : (number, raw) ∈ numberFrom 1 (lines source.toList)) :
    1 ≤ number ∧ number ≤ (lines source.toList).length := by
  obtain ⟨index, stands, rfl⟩ := mem_numberFrom_iff.mp numbered
  obtain ⟨inside, -⟩ := List.getElem?_eq_some_iff.mp stands
  omega

namespace Classic

variable {source : String} {rule : Rule} {problem : Problem}

/-- A directive sets cells of one character, which is no blank. -/
theorem exists_visible_of_mem_tapeCells {text : List Char} {cells : List Symbol}
    (found : tapeCells? text = some cells) :
    ∀ cell ∈ cells, ∃ c, isBlank c = false ∧ cell = String.singleton c := by
  simp only [tapeCells?] at found
  split at found
  · cases found
  · next rest _ =>
    split at found
    · cases found
    · cases found
      intro cell member
      obtain ⟨c, kept, rfl⟩ := List.mem_map.mp member
      exact ⟨c, by simpa using List.of_mem_filter kept, rfl⟩

/-- A line that sets the tape sets such cells. -/
theorem exists_visible_of_readLine {number : Nat} {text : List Char} {cells : List Symbol}
    (found : (readLine number text).tape? = some cells) :
    ∀ cell ∈ cells, ∃ c, isBlank c = false ∧ cell = String.singleton c := by
  simp only [readLine, readTrimmed] at found
  split at found
  · cases found
  · split at found
    · next tape =>
      cases found
      exact exists_visible_of_mem_tapeCells tape
    · split at found <;> cases found

/-- A problem is on its line. -/
theorem line_of_problem {number : Nat} {text : List Char}
    (found : readLine number text = .problem problem) : problem.line = number := by
  simp only [readLine, readTrimmed] at found
  split at found
  · cases found
  · split at found
    · cases found
    · split at found
      · cases found
      · cases found
        rfl

/-- A rule is on its line. -/
theorem line_of_rule {number : Nat} {text : List Char}
    (found : readLine number text = .rule rule) : rule.line = some (number : Int) := by
  rw [(declares_of_readLine found).2]

/-- A rule that was read is what a reading declares. -/
theorem rule?_eq_some_iff {reading : Reading} :
    reading.rule? = some rule ↔ reading = .rule rule := by
  cases reading <;> simp [Reading.rule?]

/-- A problem that was read is what a reading is. -/
theorem problem?_eq_some_iff {reading : Reading} :
    reading.problem? = some problem ↔ reading = .problem problem := by
  cases reading <;> simp [Reading.problem?]

/-- The rules are read from the numbered lines. -/
theorem mem_rules_iff : rule ∈ (read source).rules ↔
    ∃ line ∈ numberFrom 1 (lines source.toList), readLine line.1 line.2 = .rule rule := by
  simp only [read, readings, List.filterMap_map, List.mem_filterMap, Function.comp_apply,
    rule?_eq_some_iff]

/-- The problems are read from the numbered lines. -/
theorem mem_problems_iff : problem ∈ (read source).problems ↔
    ∃ line ∈ numberFrom 1 (lines source.toList), readLine line.1 line.2 = .problem problem := by
  simp only [read, readings, List.filterMap_map, List.mem_filterMap, Function.comp_apply,
    problem?_eq_some_iff]

/-- A classic machine has a tape, and each of its cells is one character, which is no blank. -/
theorem tape_read (source : String) :
    (read source).tape ≠ [] ∧
      ∀ cell ∈ (read source).tape, ∃ c, isBlank c = false ∧ cell = String.singleton c := by
  have default : defaultTape ≠ [] ∧
      ∀ cell ∈ defaultTape, ∃ c, isBlank c = false ∧ cell = String.singleton c := by
    refine ⟨by decide, fun cell member => ?_⟩
    obtain rfl : cell = "0" := by simpa [defaultTape] using member
    exact ⟨'0', by decide, rfl⟩
  simp only [read, tapeOf]
  split
  · next first others last =>
    have member := List.mem_of_getLast? last
    obtain ⟨reading, isReading, sets⟩ := List.mem_filterMap.mp member
    obtain ⟨⟨number, text⟩, -, rfl⟩ := List.mem_map.mp isReading
    exact ⟨List.cons_ne_nil _ _, exists_visible_of_readLine sets⟩
  · exact default

/-- The rules of a classic machine are in the order of their lines. -/
theorem pairwise_rules (source : String) : (read source).rules.Pairwise fun before after =>
    ∃ first ∈ before.line, ∃ second ∈ after.line, first < second := by
  simp only [read, readings, List.filterMap_map, List.pairwise_filterMap, Function.comp_apply,
    rule?_eq_some_iff]
  refine (pairwise_numberFrom 1 _).imp fun later before declared after declaredLater => ?_
  exact ⟨_, line_of_rule declared, _, line_of_rule declaredLater, by exact_mod_cast later⟩

/-- The problems of a classic machine are in the order of their lines. -/
theorem pairwise_problems (source : String) :
    (read source).problems.Pairwise fun before after => before.line ≤ after.line := by
  simp only [read, readings, List.filterMap_map, List.pairwise_filterMap, Function.comp_apply,
    problem?_eq_some_iff]
  refine (pairwise_numberFrom 1 _).imp fun later before found after foundLater => ?_
  rw [line_of_problem found, line_of_problem foundLater]
  exact_mod_cast Nat.le_of_lt later

/-- A line of a classic source is not both a rule and a problem. -/
theorem line_ne_of_mem (isRule : rule ∈ (read source).rules)
    (isProblem : problem ∈ (read source).problems) : rule.line ≠ some problem.line := by
  obtain ⟨⟨number, raw⟩, numbered, declares⟩ := mem_rules_iff.mp isRule
  obtain ⟨⟨other, otherRaw⟩, otherNumbered, fails⟩ := mem_problems_iff.mp isProblem
  intro same
  rw [line_of_rule declares, line_of_problem fails] at same
  obtain ⟨index, stands, rfl⟩ := mem_numberFrom_iff.mp numbered
  obtain ⟨otherIndex, otherStands, rfl⟩ := mem_numberFrom_iff.mp otherNumbered
  -- A line is found by its number, so both were read from one line.
  obtain rfl : index = otherIndex := by
    have := Option.some.inj same
    omega
  obtain rfl : raw = otherRaw := Option.some.inj (stands.symm.trans otherStands)
  cases declares.symm.trans fails

/-- The machine of a classic source has the classic form. -/
theorem classicForm_read (source : String) : (read source).ClassicForm where
  writing _ := passthrough_of_mem_rules
  increasing := pairwise_rules source
  apart _ isRule _ := line_ne_of_mem isRule
  fields rule isRule := by
    obtain ⟨_, _, declares⟩ := mem_rules_iff.mp isRule
    exact hasFields_bare.mp (declares_of_readLine declares).1.isRuleLine.hasFields

/-- The machine of a classic source is well formed. -/
theorem wellFormed_read (source : String) :
    (read source).WellFormed (lines source.toList).length where
  tape := (tape_read source).1
  cells cell member := by
    obtain ⟨c, -, rfl⟩ := (tape_read source).2 cell member
    exact String.length_singleton
  begins := Definition.toList_tape_initial (tape_read source).1
  ruleLines rule isRule := by
    obtain ⟨⟨number, raw⟩, numbered, declares⟩ := mem_rules_iff.mp isRule
    exact ⟨number, line_of_rule declares, by exact_mod_cast number_of_mem_numberFrom numbered⟩
  problemLines problem isProblem := by
    obtain ⟨⟨number, raw⟩, numbered, fails⟩ := mem_problems_iff.mp isProblem
    rw [line_of_problem fails]
    exact_mod_cast number_of_mem_numberFrom numbered
  ordered := pairwise_problems source
  keeps rule isRule passes := by
    rw [passthrough_of_mem_rules isRule] at passes
    cases passes
  classic _ := classicForm_read source
  structured isStructured := by cases isStructured

end Classic

namespace Structured

variable {source : String} {declaration : Declaration}

/-- The lines of a source that were read have numbers of its lines. -/
theorem number_of_mem_sourceLines {line : SourceLine} (member : line ∈ sourceLines source) :
    1 ≤ line.number ∧ line.number ≤ (lines source.toList).length := by
  obtain ⟨before, after, cut⟩ := List.append_of_mem member
  obtain ⟨raw, stands, read⟩ := sourceLines_eq_append cut
  obtain ⟨inside, -⟩ := List.getElem?_eq_some_iff.mp stands
  rw [read]
  exact ⟨Nat.le_add_left 1 _, inside⟩

/-- A declaration names its line. -/
theorem line_of_mem_declarations {blank : Symbol} {line : SourceLine}
    (member : declaration ∈ line.declarations blank) : declaration.line = line.number := by
  simp only [SourceLine.declarations] at member
  split at member
  · obtain ⟨_, -, rfl⟩ := List.mem_map.mp member
    rfl
  · cases member

/-- What a source declares is declared on one of its lines. -/
theorem line_of_mem_declarationsOf (member : declaration ∈ declarationsOf source) :
    1 ≤ declaration.line ∧ declaration.line ≤ (lines source.toList).length := by
  obtain ⟨line, isLine, declares⟩ := List.mem_flatMap.mp member
  rw [line_of_mem_declarations declares]
  exact number_of_mem_sourceLines isLine

/-- An unreadable line is a problem on that line. -/
theorem line_of_problem? {line : SourceLine} {problem : Problem}
    (found : line.problem? = some problem) : problem.line = line.number := by
  simp only [SourceLine.problem?] at found
  split at found
  · cases found
    rfl
  · cases found

/-- A structured machine has a tape, and its cells are of one character. -/
theorem tape_read (source : String) :
    (read source).tape ≠ [] ∧ ∀ cell ∈ (read source).tape, cell.length = 1 := by
  simp only [read, Document.definition]
  split
  · exact ⟨by decide, length_of_mem_defaultTape⟩
  · next visible =>
    refine ⟨?_, fun _ => length_of_mem_singletons⟩
    simpa using visible

/-- Each rule of a structured machine is what its source declares somewhere. -/
theorem exists_declaration_of_mem_rules {rule : Rule} (member : rule ∈ (read source).rules) :
    ∃ declaration ∈ declarationsOf source, declaration.rule (read source).blank = rule := by
  rw [(perm_rules_read source).mem_iff] at member
  obtain ⟨declaration, first, declares⟩ := List.mem_map.mp member
  exact ⟨declaration, firstsOf_repeatsOf_sublist.1.subset first, declares⟩

/-- Each problem of a structured machine is an unreadable line or a declaration that comes
again. -/
theorem exists_of_mem_problems {problem : Problem} (member : problem ∈ (read source).problems) :
    (∃ line ∈ sourceLines source, line.problem? = some problem) ∨
      ∃ declaration ∈ declarationsOf source, declaration.duplicateProblem = problem := by
  rw [problems_read, (perm_problems_ofLines _).mem_iff, List.mem_append] at member
  refine member.imp List.mem_filterMap.mp fun again => ?_
  obtain ⟨declaration, later, reports⟩ := List.mem_map.mp again
  rw [declarationsOf, blank_read]
  exact ⟨declaration, firstsOf_repeatsOf_sublist.2.subset later, reports⟩

/-- The machine of a structured source is well formed. -/
theorem wellFormed_read (source : String) :
    (read source).WellFormed (lines source.toList).length where
  tape := (tape_read source).1
  cells := (tape_read source).2
  begins := Definition.toList_tape_initial (tape_read source).1
  ruleLines rule isRule := by
    obtain ⟨declaration, declared, rfl⟩ := exists_declaration_of_mem_rules isRule
    exact ⟨declaration.line, rfl, by exact_mod_cast line_of_mem_declarationsOf declared⟩
  problemLines problem isProblem := by
    rcases exists_of_mem_problems isProblem with
      ⟨line, isLine, fails⟩ | ⟨declaration, declared, rfl⟩
    · rw [line_of_problem? fails]
      exact_mod_cast number_of_mem_sourceLines isLine
    · have named : declaration.duplicateProblem.line = declaration.line := rfl
      rw [named]
      exact_mod_cast line_of_mem_declarationsOf declared
  ordered := by
    rw [problems_read]
    exact pairwise_problems_ofLines _
  keeps _ := keeps_of_mem_rules
  classic isClassic := by cases isClassic
  structured _ := nodup_keys_read source

end Structured

namespace Source

/-- Every machine that is read from a source, in the notation given or in the one it is written
in, is well formed. -/
theorem read_wellFormed (source : String) (dialect : Option Dialect) :
    (read source dialect).dialect = dialect.getD (dialectOf source) ∧
      (read source dialect).WellFormed (lines source.toList).length := by
  rw [read]
  cases dialect.getD (dialectOf source) with
  | classic => exact ⟨rfl, Classic.wellFormed_read source⟩
  | structured => exact ⟨rfl, Structured.wellFormed_read source⟩

end Source

end TapeLab
