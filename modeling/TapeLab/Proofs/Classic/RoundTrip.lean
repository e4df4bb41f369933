import TapeLab.Proofs.Classic.Printing

/-!
# Printing and reading again

The printable rules are read back from the text that the printer makes of them
(`Classic.read_print`), and no others are (`Classic.printable_of_read_print`).  The rules of
a source are printable but for fields that begin with a hash and go on: such a field can be
declared in a line without blanks, but it is printed after one, where it opens a comment.
So the printer loses rules of some sources and keeps those of all others.
-/

namespace TapeLab.Classic

open TapeLab.Text

variable {rules : List Rule} {rule : Rule} {source : String}

/-- The machine that printed rules are read back as, each from its line below the header. -/
def reread (rules : List Rule) : Definition where
  dialect := .classic
  rules := rules.mapIdx fun index rule => { rule.bare with line := some (index + 2 : Int) }
  tape := defaultTape
  start := startState

/-- A source all lines of which after the first declare rules. -/
theorem read_of_readings {found : List Rule}
    (same : readings source = .ignored :: found.map Reading.rule) :
    read source = { dialect := .classic, rules := found, tape := defaultTape, start := startState } := by
  have rules : (readings source).filterMap Reading.rule? = found := by
    rw [same, List.filterMap_cons_none rfl, List.filterMap_map]
    exact List.filterMap_some
  have tapes : (readings source).filterMap Reading.tape? = [] := by
    simp [same, Reading.tape?]
  have problems : (readings source).filterMap Reading.problem? = [] := by
    simp [same, Reading.problem?]
  simp [read, rules, problems, tapeOf, tapes]

/-- Reading printable rules from the text that was printed. -/
theorem read_print (printable : ∀ rule ∈ rules, PrintableRule rule) :
    read (print rules) = reread rules := by
  have declared (line : Nat × Rule) (member : line ∈ numberFrom 2 rules) :
      readLine line.1 line.2.describe.toList =
        .rule { line.2.bare with line := some (line.1 : Int) } :=
    readLine_describe (printable line.2 (mem_of_mem_numberFrom member)) line.1
  have numbered : (numberFrom 2 rules).map (fun line =>
      { line.2.bare with line := some (line.1 : Int) }) = (reread rules).rules := by
    simp [map_numberFrom, reread, Int.add_comm]
  have found : readings (print rules) = .ignored :: (reread rules).rules.map Reading.rule := by
    rw [readings_print fun rule member => (printable rule member).unbroken_describe,
      List.map_congr_left declared, ← numbered, List.map_map]
    rfl
  exact read_of_readings found

/-- Nothing but lines was added to the rules. -/
theorem map_bare_reread (rules : List Rule) :
    (reread rules).rules.map Rule.bare = rules.map Rule.bare := by
  apply List.ext_getElem
  · simp [reread]
  · intro index _ _
    simp [reread, Rule.bare]

/-- A rule that is read from a source was declared by what is left of one of its lines. -/
theorem exists_declares_of_mem_rules (member : rule ∈ (read source).rules) :
    ∃ content, Unbroken content ∧ Declares content rule.bare := by
  obtain ⟨number, line, isLine, found⟩ := exists_line_of_mem_rules member
  refine ⟨_, fun c inContent => ?_, (declares_of_readLine found).1⟩
  exact unbroken_of_mem_lines isLine c (mem_of_mem_trim (mem_of_mem_stripComment inContent))

/-- No line ends in the printed line of a rule that was declared where none ends. -/
theorem Declares.unbroken_describe {content : List Char} (declares : Declares content rule.bare)
    (unbroken : Unbroken content) : Unbroken rule.describe.toList := by
  obtain ⟨inState, inRead, inNext, inWrite⟩ := declares.isRuleLine.standsIn
  exact Classic.unbroken_describe (fun c member => unbroken c (inState.mem member))
    (fun c member => unbroken c (inRead.mem member))
    (fun c member => unbroken c (inNext.mem member))
    (fun c member => unbroken c (inWrite.mem member))

/-- Every printed line declares a rule if as many rules are read back as were printed. -/
theorem exists_readLine_of_length (unbroken : ∀ rule ∈ rules, Unbroken rule.describe.toList)
    (asMany : (read (print rules)).rules.length = rules.length) (member : rule ∈ rules) :
    ∃ number other, readLine number rule.describe.toList = .rule other := by
  have found : (read (print rules)).rules =
      ((numberFrom 2 rules).map fun line =>
        readLine line.1 line.2.describe.toList).filterMap Reading.rule? := by
    rw [read, readings_print unbroken]
    simp only [List.filterMap_cons, Reading.rule?]
  rw [found, map_numberFrom] at asMany
  obtain ⟨index, inRange, rfl⟩ := List.mem_iff_getElem.mp member
  have every := List.filterMap_length_eq_length.mp (asMany.trans List.length_mapIdx.symm)
  have declares := every (readLine (2 + index) rules[index].describe.toList)
    (List.mem_mapIdx.mpr ⟨index, inRange, rfl⟩)
  refine ⟨2 + index, ?_⟩
  cases reading : readLine (2 + index) rules[index].describe.toList with
  | rule other => exact ⟨other, rfl⟩
  | ignored | tape | problem => simp [reading, Reading.rule?] at declares

/-- Rules that are read back as they were are printable. -/
theorem printable_of_read_print
    (kept : (read (print rules)).rules.map Rule.bare = rules.map Rule.bare) :
    ∀ rule ∈ rules, PrintableRule rule := by
  have comesBack : ∀ rule ∈ rules, ∃ content, Unbroken content ∧ Declares content rule.bare := by
    intro rule member
    have listed : rule.bare ∈ (read (print rules)).rules.map Rule.bare :=
      kept ▸ List.mem_map_of_mem member
    obtain ⟨other, isRead, same⟩ := List.mem_map.mp listed
    exact same ▸ exists_declares_of_mem_rules isRead
  have unbroken : ∀ rule ∈ rules, Unbroken rule.describe.toList := by
    intro rule member
    obtain ⟨content, whole, declares⟩ := comesBack rule member
    exact declares.unbroken_describe whole
  have asMany : (read (print rules)).rules.length = rules.length := by
    simpa using congrArg List.length kept
  intro rule member
  obtain ⟨content, _, declares⟩ := comesBack rule member
  obtain ⟨number, other, found⟩ := exists_readLine_of_length unbroken asMany member
  exact printable_of_readLine (hasFields_bare.mp declares.isRuleLine.hasFields)
    (unbroken rule member) found

/-- Exactly the printable rules are read back from the text that they are printed as; they
are read without problems, from one line each, and none of them passes over its cell. -/
theorem read_print_iff (rules : List Rule) :
    ((read (print rules)).rules.map Rule.bare = rules.map Rule.bare ↔
      ∀ rule ∈ rules, PrintableRule rule) ∧
    ((∀ rule ∈ rules, PrintableRule rule) → read (print rules) = reread rules) := by
  refine ⟨⟨printable_of_read_print, fun printable => ?_⟩, read_print⟩
  rw [read_print printable, map_bare_reread]

/-- Rules with hashes where a comment could be, of which only the last characters are. -/
def hashedRules : List Rule :=
  [{ state := "busy beaver", read := "a#", next := "#", write := "b #", move := .right,
     passthrough := true },
   { state := "q1", read := "_", next := "q1", write := "\"", move := .stay, line := some 7 }]

/-- Two rules that are read back. -/
theorem read_print_hashedRules :
    (∀ rule ∈ hashedRules, PrintableRule rule) ∧ read (print hashedRules) = reread hashedRules := by
  have kept : (read (print hashedRules)).rules.map Rule.bare = hashedRules.map Rule.bare := by
    decide
  have printable := (read_print_iff hashedRules).1.mp kept
  exact ⟨printable, (read_print_iff hashedRules).2 printable⟩

/-- The lines of rules with well-formed fields say what the rules do. -/
theorem map_bare_eq_of_map_describe_eq {others : List Rule}
    (fields : ∀ rule ∈ rules, HasFields rule) (otherFields : ∀ rule ∈ others, HasFields rule)
    (same : rules.map Rule.describe = others.map Rule.describe) :
    rules.map Rule.bare = others.map Rule.bare := by
  have readable {list : List Rule} (wellFormed : ∀ rule ∈ list, HasFields rule) :
      (list.map Rule.describe).map (fun line => readRule line.toList none) =
        (list.map Rule.bare).map Except.ok := by
    rw [List.map_map, List.map_map]
    exact List.map_congr_left fun rule member =>
      readRule_complete (isRuleLine_describe (wellFormed rule member)) none
  apply (List.map_inj_right fun _ _ => Except.ok.inj).mp
  rw [← readable fields, ← readable otherFields, same]

/-- The rules of a source are read back from the text that they are printed as, all of them
and nothing else, exactly if no field but a state begins with a hash and goes on. -/
theorem reprinted_iff (source : String) :
    ((read (print (read source).rules)).problems = [] ∧
      (read (print (read source).rules)).rules.map Rule.describe =
        (read source).rules.map Rule.describe) ↔
    ∀ rule ∈ (read source).rules, ∀ field ∈ spacedFields rule, ¬OpensComment field := by
  have hasFields {text : String} (rule : Rule) (member : rule ∈ (read text).rules) :
      HasFields rule := by
    obtain ⟨_, _, declares⟩ := exists_declares_of_mem_rules member
    exact hasFields_bare.mp declares.isRuleLine.hasFields
  have printableIff (rule : Rule) (member : rule ∈ (read source).rules) :
      PrintableRule rule ↔ ∀ field ∈ spacedFields rule, ¬OpensComment field := by
    obtain ⟨_, unbroken, declares⟩ := exists_declares_of_mem_rules member
    exact printableRule_bare.symm.trans (declares.printable_iff unbroken)
  constructor
  · rintro ⟨_, sameLines⟩ rule member
    have kept := map_bare_eq_of_map_describe_eq hasFields hasFields sameLines
    exact (printableIff rule member).mp (printable_of_read_print kept rule member)
  · intro closed
    have printable : ∀ rule ∈ (read source).rules, PrintableRule rule := fun rule member =>
      (printableIff rule member).mpr (closed rule member)
    rw [read_print printable]
    have sameLines := congrArg (List.map Rule.describe) (map_bare_reread (read source).rules)
    exact ⟨rfl, by simpa [Function.comp_def] using sameLines⟩

/-- A source that is read without problems, and whose rule is printed with a comment. -/
def crammedSource : String :=
  "q0,#b->q1,1,R"

/-- The rule of a source that does not survive. -/
theorem crammedSource_not_reprinted :
    ¬((read (print (read crammedSource).rules)).problems = [] ∧
      (read (print (read crammedSource).rules)).rules.map Rule.describe =
        (read crammedSource).rules.map Rule.describe) := by
  decide

end TapeLab.Classic
