import Mathlib.Logic.ExistsUnique
import TapeLab.Proofs.Classic.Reading
import TapeLab.Proofs.Classic.Renumbering
import TapeLab.Proofs.Classic.RuleFault

/-!
# Classic sources are read line by line

`Says` tells what a line says by the grammar of its parts: nothing, the tape, a rule, or what is
wrong with it.  Every line says one thing (`Classic.said_iff`), and a machine has of each of its
lines what that says and nothing else (`Classic.readsByLine_read`).  No line depends on another, so
of two sources, one behind the other, the machine has the rules and the problems of both
(`Classic.read_append`).
-/

namespace TapeLab

open TapeLab.Text

/-- The rules that a machine has of a line. -/
def Definition.rulesOn (machine : Definition) (number : Nat) : List Rule :=
  machine.rules.filter fun rule => rule.line == some (number : Int)

/-- The problems that a machine has of a line. -/
def Definition.problemsOn (machine : Definition) (number : Nat) : List Problem :=
  machine.problems.filter fun problem => problem.line == (number : Int)

namespace Classic

variable {number : Nat} {line : List Char} {cells : List Symbol} {reading : Reading}
  {source : String}

/-! ### What a line says -/

/-- A line that says nothing: it is blank, or a hash begins it. -/
def IsIgnored (line : List Char) : Prop :=
  trim line = [] ∨ (trim line).head? = some '#'

/-- A line sets the tape: without its comment it is the words of the directive, each letter in any
case, and something more, of which every visible character is a cell. -/
def SetsTape (line : List Char) (cells : List Symbol) : Prop :=
  ∃ opening rest, stripComment (trim line) = opening ++ rest ∧
    opening.length = tapeDirective.length ∧
    (∀ pair ∈ tapeDirective.zip opening, matchesLetter pair.1 pair.2 = true) ∧
    rest ≠ [] ∧ cells = (removeBlanks rest).map String.singleton

/-- What the line of a number says.  A line that is not ignored and does not set the tape is a
rule or a problem by what is left of it after its comment. -/
inductive Says (number : Nat) (line : List Char) : Reading → Prop where
  | ignored (ignored : IsIgnored line) : Says number line .ignored
  | tape {cells : List Symbol} (sets : SetsTape line cells) : Says number line (.tape cells)
  | rule {declared : Rule} (counts : ¬IsIgnored line) (noTape : ∀ cells, ¬SetsTape line cells)
      (isRuleLine : IsRuleLine (stripComment (trim line)) declared) :
      Says number line (.rule { declared with line := some (number : Int) })
  | problem {fault : RuleFault} (counts : ¬IsIgnored line)
      (noTape : ∀ cells, ¬SetsTape line cells)
      (hasFault : HasFault (stripComment (trim line)) fault) :
      Says number line (.problem ⟨number, String.ofList (trim line), fault.message⟩)

/-- A line sets the tape exactly if the directive is found in it. -/
theorem setsTape_iff :
    SetsTape line cells ↔ tapeCells? (stripComment (trim line)) = some cells := by
  constructor
  · rintro ⟨opening, rest, cut, sameLength, letterwise, goesOn, rfl⟩
    have found := afterWords?_eq_some_iff.mpr ⟨opening, cut, sameLength, letterwise⟩
    simp [tapeCells?, found, goesOn]
  · intro found
    unfold tapeCells? at found
    split at found
    · cases found
    · next rest words =>
      split at found
      · cases found
      · next goesOn =>
        obtain ⟨opening, cut, sameLength, letterwise⟩ := afterWords?_eq_some_iff.mp words
        exact ⟨opening, rest, cut, sameLength, letterwise, by simpa using goesOn,
          (Option.some.inj found).symm⟩

/-- A line that sets the tape is not ignored: it begins with the first letter of the directive. -/
theorem SetsTape.counts (sets : SetsTape line cells) : ¬IsIgnored line := by
  obtain ⟨opening, rest, cut, sameLength, letterwise, goesOn, -⟩ := sets
  rintro (nothing | hash)
  · rw [nothing] at cut
    have empty : opening ++ rest = [] := cut.symm
    exact goesOn (List.append_eq_nil_iff.mp empty).2
  · obtain ⟨c, letters, rfl⟩ := List.exists_cons_of_length_eq_add_one sameLength
    have first : (stripComment (trim line)).head? = some c := by rw [cut]; rfl
    obtain rfl : c = '#' :=
      Option.some.inj ((head?_stripComment (trim_trim line) first).symm.trans hash)
    have matched := letterwise ('i', '#') List.mem_cons_self
    exact absurd matched (by decide)

/-- A tape that a line sets has a cell: the last character of the line is visible. -/
theorem SetsTape.ne_nil (sets : SetsTape line cells) : cells ≠ [] := by
  obtain ⟨opening, rest, cut, -, -, goesOn, rfl⟩ := sets
  obtain ⟨front, c, rfl⟩ := (List.eq_nil_or_concat rest).resolve_left goesOn
  have last : (stripComment (trim line)).getLast? = some c := by simp [cut]
  have visible : isBlank c = false := (trim_eq_self_iff.mp (trim_trim _)).2 c last
  simp [removeBlanks, visible]

/-- What is read from a line is what it says. -/
theorem said_readLine (number : Nat) (line : List Char) :
    Says number line (readLine number line) := by
  unfold readLine readTrimmed
  split
  · next ignored =>
    simp only [Bool.or_eq_true, List.isEmpty_iff, beq_iff_eq] at ignored
    exact .ignored ignored
  · next counts =>
    simp only [Bool.or_eq_true, List.isEmpty_iff, beq_iff_eq] at counts
    dsimp only
    cases found : tapeCells? (stripComment (trim line)) with
    | some cells => exact .tape (setsTape_iff.mpr found)
    | none =>
        have noTape : ∀ cells, ¬SetsTape line cells := fun cells sets => by
          rw [setsTape_iff.mp sets] at found
          cases found
        cases read : readRule (stripComment (trim line)) (some (number : Int)) with
        | ok rule =>
            obtain ⟨declared, isRuleLine, rfl⟩ := readRule_sound read
            exact .rule counts noTape isRuleLine
        | error fault => exact .problem counts noTape (hasFault_of_readRule read)

/-- What a line says is read from it. -/
theorem Says.readLine_eq (said : Says number line reading) : readLine number line = reading := by
  have looksAt (counts : ¬IsIgnored line) :
      ¬((trim line).isEmpty || (trim line).head? == some '#') = true := by
    simpa only [IsIgnored, Bool.or_eq_true, List.isEmpty_iff, beq_iff_eq] using counts
  have tapeless (noTape : ∀ cells, ¬SetsTape line cells) :
      tapeCells? (stripComment (trim line)) = none :=
    Option.eq_none_iff_forall_ne_some.mpr fun cells => mt setsTape_iff.mpr (noTape cells)
  unfold readLine readTrimmed
  cases said with
  | ignored ignored =>
      rw [if_pos]
      simpa only [IsIgnored, Bool.or_eq_true, List.isEmpty_iff, beq_iff_eq] using ignored
  | tape sets =>
      rw [if_neg (looksAt sets.counts)]
      simp only [setsTape_iff.mp sets]
  | rule counts noTape isRuleLine =>
      rw [if_neg (looksAt counts)]
      simp only [tapeless noTape, readRule_complete isRuleLine]
  | problem counts noTape hasFault =>
      rw [if_neg (looksAt counts)]
      simp only [tapeless noTape, hasFault.readRule]

/-- Every line says exactly one thing, and that is read from it. -/
theorem said_iff : Says number line reading ↔ readLine number line = reading :=
  ⟨Says.readLine_eq, fun read => read ▸ said_readLine number line⟩

/-- What a line declares and what is wrong with it name the line. -/
theorem Says.names (said : Says number line reading) :
    (∀ rule ∈ reading.rule?, rule.line = some (number : Int)) ∧
      ∀ problem ∈ reading.problem?, problem.line = number := by
  cases said <;> simp [Reading.rule?, Reading.problem?]

/-! ### What a machine has of a line -/

/-- What is gathered from the readings was read from a numbered line. -/
theorem exists_numbered_of_mem {α : Type} {part? : Reading → Option α} {found : α}
    (member : found ∈ (readings source).filterMap part?) : ∃ number line,
      (number, line) ∈ numberFrom 1 (lines source.toList) ∧
        part? (readLine number line) = some found := by
  obtain ⟨reading, isReading, isPart⟩ := List.mem_filterMap.mp member
  obtain ⟨⟨number, line⟩, numbered, rfl⟩ := List.mem_map.mp isReading
  exact ⟨number, line, numbered, isPart⟩

/-- Where what is gathered names its lines, only what was read from a line names it. -/
theorem filter_filterMap_readings {α : Type} (part? : Reading → Option α) (isOn : Nat → α → Bool)
    (named : ∀ number line, ∀ found ∈ part? (readLine number line), ∀ other,
      isOn other found = (number == other))
    (member : (number, line) ∈ numberFrom 1 (lines source.toList)) :
    ((readings source).filterMap part?).filter (isOn number) =
      (part? (readLine number line)).toList := by
  have only : (numberFrom 1 (lines source.toList)).filterMap
      (fun other => (part? (readLine other.1 other.2)).filter (isOn number)) =
      ((numberFrom 1 (lines source.toList)).filter fun other => other.1 == number).filterMap
        fun other => part? (readLine other.1 other.2) := by
    rw [List.filterMap_filter]
    refine congrArg (fun f => List.filterMap f _) (funext fun other => ?_)
    cases found : part? (readLine other.1 other.2) with
    | none => simp
    | some part => simp [Option.filter, named other.1 other.2 part found number]
  rw [readings, List.filterMap_map, List.filter_filterMap]
  refine only.trans ?_
  simp only [filter_numberFrom member, List.filterMap_cons, List.filterMap_nil]
  cases part? (readLine number line) <;> rfl

/-- A machine has the rule of a line that declares one, and none of any other line. -/
theorem rulesOn_read (member : (number, line) ∈ numberFrom 1 (lines source.toList)) :
    (read source).rulesOn number = (readLine number line).rule?.toList := by
  refine filter_filterMap_readings Reading.rule? (fun place rule => rule.line == some (place : Int))
    (fun place text rule declares other => ?_) member
  rw [(said_readLine place text).names.1 rule declares, Bool.eq_iff_iff, beq_iff_eq, beq_iff_eq,
    Option.some_inj]
  exact Int.ofNat_inj

/-- A machine has the problem of a line that is one, and none of any other line. -/
theorem problemsOn_read (member : (number, line) ∈ numberFrom 1 (lines source.toList)) :
    (read source).problemsOn number = (readLine number line).problem?.toList := by
  refine filter_filterMap_readings Reading.problem?
    (fun place problem => problem.line == (place : Int))
    (fun place text problem isProblem other => ?_) member
  rw [(said_readLine place text).names.2 problem isProblem, Bool.eq_iff_iff, beq_iff_eq, beq_iff_eq]
  exact Int.ofNat_inj

/-- The tape of a source: that of the last line that sets it, or the usual one. -/
inductive HasTape : List (List Char) → List Symbol → Prop where
  | set {before after : List (List Char)} {line : List Char} {cells : List Symbol}
      (sets : SetsTape line cells) (last : ∀ other ∈ after, ∀ cells, ¬SetsTape other cells) :
      HasTape (before ++ line :: after) cells
  | usual {lines : List (List Char)} (unset : ∀ line ∈ lines, ∀ cells, ¬SetsTape line cells) :
      HasTape lines defaultTape

/-- A line sets the tape exactly if a tape is read from it. -/
theorem tape?_readLine (number : Nat) (line : List Char) :
    (readLine number line).tape? = some cells ↔ SetsTape line cells := by
  constructor
  · intro found
    have said := said_readLine number line
    cases reading : readLine number line with
    | tape others =>
        rw [reading] at found said
        obtain rfl : others = cells := Option.some.inj found
        cases said with
        | tape sets => exact sets
    | _ => simp [reading, Reading.tape?] at found
  · intro sets
    rw [(Says.tape sets).readLine_eq]
    rfl

/-- No tape is read from a line that does not set it. -/
theorem tape?_readLine_eq_none (number : Nat) (line : List Char) :
    (readLine number line).tape? = none ↔ ∀ cells, ¬SetsTape line cells := by
  simp only [Option.eq_none_iff_forall_ne_some, ne_eq, tape?_readLine]

/-- A machine has the tape of its source. -/
theorem hasTape_read (source : String) : HasTape (lines source.toList) (read source).tape := by
  have tapes : ((readings source).filterMap Reading.tape?).getLast? =
      (numberFrom 1 (lines source.toList)).reverse.findSome? fun part =>
        (readLine part.1 part.2).tape? := by
    rw [readings, List.filterMap_map, List.getLast?_filterMap]
    rfl
  have unnumbered := map_snd_numberFrom 1 (lines source.toList)
  rw [read_eq_machineOf, machineOf, tapeOf, tapes]
  cases found : (numberFrom 1 (lines source.toList)).reverse.findSome? fun part =>
      (readLine part.1 part.2).tape? with
  | none =>
      refine .usual fun line member cells => ?_
      rw [← unnumbered] at member
      obtain ⟨part, isPart, rfl⟩ := List.mem_map.mp member
      have unset := List.findSome?_eq_none_iff.mp found part (List.mem_reverse.mpr isPart)
      exact (tape?_readLine_eq_none _ _).mp unset cells
  | some cells =>
      obtain ⟨later, part, earlier, cut, sets, last⟩ := List.findSome?_eq_some_iff.mp found
      have isSet := (tape?_readLine _ _).mp sets
      obtain ⟨first, others, rfl⟩ := List.exists_cons_of_ne_nil isSet.ne_nil
      have whole : lines source.toList =
          earlier.reverse.map Prod.snd ++ part.2 :: later.reverse.map Prod.snd := by
        rw [← unnumbered, ← List.reverse_reverse (numberFrom 1 (lines source.toList)), cut]
        simp
      rw [whole]
      refine .set isSet fun other member cells => ?_
      obtain ⟨behind, isBehind, rfl⟩ := List.mem_map.mp member
      have unset := last behind (List.mem_reverse.mp isBehind)
      exact (tape?_readLine_eq_none _ _).mp unset cells

/-! ### Reading line by line -/

/-- A machine is what the lines of its source say. -/
structure ReadsByLine (source : String) (machine : Definition) : Prop where
  /-- Every line says exactly one thing: nothing, the tape, a rule, or what is wrong with it.  The
  machine has of it the one rule or the one problem that it says, and nothing of another line. -/
  said : ∀ number line, (number, line) ∈ numberFrom 1 (lines source.toList) →
    ∃! reading, Says number line reading ∧ machine.rulesOn number = reading.rule?.toList ∧
      machine.problemsOn number = reading.problem?.toList
  /-- All rules are of lines of the source. -/
  rules : ∀ rule ∈ machine.rules, ∃ number line,
    (number, line) ∈ numberFrom 1 (lines source.toList) ∧ rule ∈ machine.rulesOn number
  /-- All problems are lines of the source. -/
  problems : ∀ problem ∈ machine.problems, ∃ number line,
    (number, line) ∈ numberFrom 1 (lines source.toList) ∧ problem ∈ machine.problemsOn number
  tape : HasTape (lines source.toList) machine.tape

/-- The machine of a source is what its lines say. -/
theorem readsByLine_read (source : String) : ReadsByLine source (read source) where
  said number line member :=
    ⟨readLine number line,
      ⟨said_readLine number line, rulesOn_read member, problemsOn_read member⟩,
      fun _ said => (said_iff.mp said.1).symm⟩
  rules rule member := by
    obtain ⟨number, line, numbered, declares⟩ := exists_numbered_of_mem member
    refine ⟨number, line, numbered, ?_⟩
    rw [rulesOn_read numbered, declares]
    exact List.mem_singleton_self rule
  problems problem member := by
    obtain ⟨number, line, numbered, isProblem⟩ := exists_numbered_of_mem member
    refine ⟨number, line, numbered, ?_⟩
    rw [problemsOn_read numbered, isProblem]
    exact List.mem_singleton_self problem
  tape := hasTape_read source

/-- The lines of two sources, one behind the other, are read as in each of them, but for the
numbers of the later ones. -/
theorem readings_append {first later : String} (ends : EndsLine first.toList later.toList) :
    readings (first ++ later) = readings first ++
      (readings later).map (Reading.renumbered (.behind (lines first.toList).length)) := by
  have moved : (readings later).map (Reading.renumbered (.behind (lines first.toList).length)) =
      (numberFrom ((lines first.toList).length + 1) (lines later.toList)).map
        fun part => readLine part.1 part.2 := by
    rw [← renumber_behind]
    simp only [readings, List.map_map, Function.comp_def, renumber, readLine_renumbered]
  rw [moved, Nat.add_comm, readings, readings, ← List.map_append, ← numberFrom_append,
    ← lines_append ends, String.toList_append]

/-- Of a source that is empty or ends with a feed and a source behind it, the machine has the rules
and the problems of the first and then those of the second, whose lines are numbered from there
on.  Its tape is that of the last line of both that sets one, and every line says exactly one thing,
which the machine has. -/
theorem read_append (first later : String)
    (ended : first = "" ∨ ∃ front, first = front ++ "\n") :
    (read (first ++ later)).rules = (read first).rules ++
        (read later).rules.map (Rule.renumbered (.behind (lines first.toList).length)) ∧
      (read (first ++ later)).problems = (read first).problems ++
        (read later).problems.map (Problem.renumbered (.behind (lines first.toList).length)) ∧
      ReadsByLine (first ++ later) (read (first ++ later)) := by
  have ends : EndsLine first.toList later.toList := by
    rcases ended with rfl | ⟨front, rfl⟩
    · exact .inl rfl
    · exact .inr ⟨front.toList, '\n', by simp, by decide, by simp⟩
  have together := readings_append ends
  have moved := machineOf_renumbered (.behind (lines first.toList).length) (readings later)
  refine ⟨?_, ?_, readsByLine_read _⟩
  · have rules := congrArg Definition.rules moved
    simp only [read_eq_machineOf, machineOf, Definition.renumbered, together,
      List.filterMap_append] at rules ⊢
    rw [rules]
  · have problems := congrArg Definition.problems moved
    simp only [read_eq_machineOf, machineOf, Definition.renumbered, together,
      List.filterMap_append] at problems ⊢
    rw [problems]

/-- A source of two lines, one of them ended by a return and a feed, and one behind it whose only
line is a problem too: it is the third line of both, and the tape is the one set in front. -/
theorem read_append_problems :
    let first := "Initial tape: 10\r\nq0 -> q1\n"
    let later := "q0, 1, 1\n"
    (∃ front, first = front ++ "\n") ∧ (lines first.toList).length = 2 ∧
      (read (first ++ later)).problems.map Problem.line = [2, 3] ∧
      HasTape (lines (first ++ later).toList) (read (first ++ later)).tape := by
  intro first later
  have ended : ∃ front, first = front ++ "\n" := ⟨"Initial tape: 10\r\nq0 -> q1", by decide⟩
  have count : (lines first.toList).length = 2 := by decide
  obtain ⟨-, problems, readsByLine⟩ := read_append first later (.inr ended)
  refine ⟨ended, count, ?_, readsByLine.tape⟩
  rw [problems, count]
  decide

end Classic

end TapeLab
