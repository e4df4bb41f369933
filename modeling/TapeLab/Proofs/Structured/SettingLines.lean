import TapeLab.Proofs.Structured.Accounting
import TapeLab.Proofs.Structured.Relabelling
import TapeLab.Proofs.Text.Trimming

/-!
# Setting lines stand anywhere

A setting line is read whichever block is open, and leaves it open.  So the setting lines of a
source and its other lines are read as if each stood alone (`Structured.filter_sets_readLines`,
`Structured.filter_others_readLines`), and what a source says hangs on the two kinds of lines, each
in its own order, but not on where the ones stand among the others
(`Structured.saysSameAs_of_movesSettings`).
-/

namespace TapeLab.Structured

open TapeLab.Text

/-- A line that sets something, or fails to. -/
def isSettingLine (raw : List Char) : Bool :=
  (setting? (stripComment (trim raw))).isSome

/-- A source in which the setting lines of another one were moved: they are in the same order among
themselves, and so are the other lines. -/
structure MovesSettings (first second : String) : Prop where
  settings : (lines second.toList).filter isSettingLine = (lines first.toList).filter isSettingLine
  others : (lines second.toList).filter (!isSettingLine ·) =
    (lines first.toList).filter (!isSettingLine ·)

namespace Document

/-- What each state does with each symbol, in the order of the declarations. -/
def table (document : Document) : List (StateName × List (Symbol × Action)) :=
  document.blocks.map fun block =>
    (block.1, block.2.map fun declaration => (declaration.symbol, declaration.action))

/-- The texts and the reasons of the problems, without their lines. -/
def reports (document : Document) : List (String × String) :=
  document.problems.map fun problem => (problem.text, problem.reason)

/-- Documents that say the same, on whatever lines, and report the same in some order. -/
structure SaysSameAs (first second : Document) : Prop where
  start : first.start = second.start
  blank : first.blank = second.blank
  input : first.input = second.input
  states : first.states = second.states
  table : first.table = second.table
  reports : first.reports.Perm second.reports

namespace SaysSameAs

variable {first second third : Document}

/-- What one says the other says. -/
theorem symm (same : first.SaysSameAs second) : second.SaysSameAs first where
  start := same.start.symm
  blank := same.blank.symm
  input := same.input.symm
  states := same.states.symm
  table := same.table.symm
  reports := same.reports.symm

/-- What one says like another is said by all that are like that. -/
theorem trans (same : first.SaysSameAs second) (sameToo : second.SaysSameAs third) :
    first.SaysSameAs third where
  start := same.start.trans sameToo.start
  blank := same.blank.trans sameToo.blank
  input := same.input.trans sameToo.input
  states := same.states.trans sameToo.states
  table := same.table.trans sameToo.table
  reports := same.reports.trans sameToo.reports

end SaysSameAs

end Document

/-- Lines whose numbers are forgotten say the same. -/
theorem saysSameAs_unplaced (lines : List SourceLine) :
    (Document.ofLines lines).SaysSameAs
      (Document.ofLines (lines.map (SourceLine.relabelled .unplaced))) where
  start := by
    simp only [Document.ofLines, settingOf?_relabelled, headerStates_relabelled]
  blank := by simp only [Document.ofLines, settingOf?_relabelled]
  input := by simp only [Document.ofLines, settingOf?_relabelled]
  states := by simp only [Document.ofLines, headerStates_relabelled]
  table := by
    simp only [Document.table, blocks_relabelled, blockRelabelled, List.map_map,
      Function.comp_def]
    rfl
  reports := by
    let blank := (settingOf? .blank lines).getD defaultBlank
    have here : (Document.ofLines lines).problems.Perm (reported blank lines) :=
      perm_problems_ofLines lines
    have there := perm_problems_ofLines (lines.map (SourceLine.relabelled .unplaced))
    have blankThere : (Document.ofLines (lines.map (SourceLine.relabelled .unplaced))).blank =
        blank := by
      simp only [Document.ofLines, settingOf?_relabelled, blank]
    rw [blankThere] at there
    have forgotten := there.trans (.of_eq (reported_relabelled .unplaced blank lines))
    have unlabelled := (forgotten.map fun problem => (problem.text, problem.reason))
    rw [List.map_map] at unlabelled
    exact (here.map _).trans unlabelled.symm

/-! ### The two kinds of lines -/

/-- A line that sets something, or fails to, by the text that is kept of it. -/
def SourceLine.sets (line : SourceLine) : Bool :=
  isSettingLine line.text.toList

/-- Nothing is lost with the blanks around a line. -/
@[simp]
theorem sets_mk (number : Nat) (raw : List Char) (reading : Reading) :
    SourceLine.sets ⟨number, String.ofList (trim raw), reading⟩ = isSettingLine raw := by
  rw [SourceLine.sets, String.toList_ofList, isSettingLine, isSettingLine, trim_trim]

/-- A line that sets something, or fails to, is read in any block, and is nothing else. -/
theorem readContent_of_isSome {content : List Char} (sets : (setting? content).isSome = true)
    (current : Option StateName) :
    readContent current content = readContent none content ∧
      (readContent none content).header? = none ∧
      ∀ state symbols action, readContent none content ≠ .transition state symbols action := by
  obtain ⟨⟨field, text⟩, found⟩ := Option.isSome_iff_exists.mp sets
  refine ⟨by simp only [readContent, found], ?_⟩
  simp only [readContent, found]
  split
  · exact ⟨rfl, nofun⟩
  · cases singleValue text with
    | ok value => exact ⟨rfl, nofun⟩
    | error fault => exact ⟨rfl, nofun⟩

/-- No other line sets anything. -/
theorem readContent_of_isNone {content : List Char} (sets : (setting? content).isSome = false)
    (current : Option StateName) (field : Field) (value : String) :
    readContent current content ≠ .setting field value := by
  have notFound : setting? content = none := by simpa using sets
  simp only [readContent, notFound]
  split
  · nofun
  · simp only [readBlockLine]
    split
    · nofun
    · nofun
    · cases current <;> nofun

/-- A line that opens no block leaves the same one open. -/
theorem Reading.blockAfter_of_header? {reading : Reading} (opensNone : reading.header? = none)
    (current : Option StateName) : reading.blockAfter current = current := by
  cases reading with
  | header state => cases opensNone
  | ignored | setting | transition | faulty => rfl

/-- Setting lines are read as if they stood alone. -/
theorem filter_sets_readLines (current : Option StateName) (numbered : List (Nat × List Char)) :
    (readLines current numbered).filter SourceLine.sets =
      readLines none (numbered.filter fun part => isSettingLine part.2) := by
  induction numbered generalizing current with
  | nil => rfl
  | cons part later inductionHypothesis =>
      obtain ⟨number, raw⟩ := part
      simp only [readLines, List.filter_cons, sets_mk, inductionHypothesis]
      split
      · next sets =>
        obtain ⟨anywhere, opensNone, -⟩ := readContent_of_isSome sets current
        simp only [readLines, anywhere, Reading.blockAfter_of_header? opensNone]
      · rfl

/-- The other lines are read as if they stood alone. -/
theorem filter_others_readLines (current : Option StateName) (numbered : List (Nat × List Char)) :
    (readLines current numbered).filter (!·.sets) =
      readLines current (numbered.filter fun part => !isSettingLine part.2) := by
  induction numbered generalizing current with
  | nil => rfl
  | cons part later inductionHypothesis =>
      obtain ⟨number, raw⟩ := part
      simp only [readLines, List.filter_cons, sets_mk, inductionHypothesis]
      cases sets : isSettingLine raw with
      | false => rfl
      | true =>
          obtain ⟨anywhere, opensNone, -⟩ := readContent_of_isSome sets current
          simp only [anywhere, Reading.blockAfter_of_header? opensNone]
          rfl

/-- Lines of which those that set something do nothing else, and no other sets anything. -/
structure ToldApart (lines : List SourceLine) : Prop where
  header : ∀ line ∈ lines, line.sets = true → line.reading.header? = none
  transition : ∀ line ∈ lines, line.sets = true → ∀ state symbols action,
    line.reading ≠ .transition state symbols action
  setting : ∀ line ∈ lines, line.sets = false → ∀ field value,
    line.reading ≠ .setting field value

/-- What a line of a source is read as. -/
theorem exists_of_mem_readLines {current : Option StateName} {numbered : List (Nat × List Char)}
    {line : SourceLine} (member : line ∈ readLines current numbered) :
    ∃ opened raw, isSettingLine raw = line.sets ∧
      line.reading = readContent opened (stripComment (trim raw)) := by
  obtain ⟨before, after, cut⟩ := List.append_of_mem member
  obtain ⟨number, raw, -, rfl⟩ := readLines_eq_append cut
  exact ⟨_, raw, (sets_mk number raw _).symm, rfl⟩

/-- The lines of a source are told apart. -/
theorem toldApart_readLines (current : Option StateName) (numbered : List (Nat × List Char)) :
    ToldApart (readLines current numbered) where
  header line member sets := by
    obtain ⟨opened, raw, kind, reading⟩ := exists_of_mem_readLines member
    obtain ⟨anywhere, opensNone, -⟩ := readContent_of_isSome (kind.trans sets) opened
    rw [reading, anywhere, opensNone]
  transition line member sets := by
    obtain ⟨opened, raw, kind, reading⟩ := exists_of_mem_readLines member
    obtain ⟨anywhere, -, declaresNothing⟩ := readContent_of_isSome (kind.trans sets) opened
    rwa [reading, anywhere]
  setting line member other := by
    obtain ⟨opened, raw, kind, reading⟩ := exists_of_mem_readLines member
    rw [reading]
    exact readContent_of_isNone (kind.trans other) opened

/-! ### What each kind of line adds -/

section Kinds

variable {lines first second : List SourceLine}

/-- Leaving out what adds nothing changes nothing. -/
theorem flatMap_filter_of_forall {α β : Type} {kept : α → Bool} {f : α → List β} {list : List α}
    (nothing : ∀ element ∈ list, kept element = false → f element = []) :
    (list.filter kept).flatMap f = list.flatMap f := by
  induction list with
  | nil => rfl
  | cons element rest inductionHypothesis =>
      obtain ⟨here, later⟩ := List.forall_mem_cons.mp nothing
      rw [List.flatMap_cons, List.filter_cons, ← inductionHypothesis later]
      split
      · rw [List.flatMap_cons]
      · next left => rw [here (by simpa using left), List.nil_append]

/-- So does leaving out what is mapped to nothing. -/
theorem filterMap_filter_of_forall {α β : Type} {kept : α → Bool} {f : α → Option β}
    {list : List α} (nothing : ∀ element ∈ list, kept element = false → f element = none) :
    (list.filter kept).filterMap f = list.filterMap f := by
  simp only [List.filterMap_eq_flatMap_toList]
  refine flatMap_filter_of_forall fun element member left => ?_
  rw [nothing element member left, Option.toList_none]

/-- Setting lines set all that is set. -/
theorem settingOf?_filter (apart : ToldApart lines) (field : Field) :
    settingOf? field (lines.filter SourceLine.sets) = settingOf? field lines := by
  rw [settingOf?, settingOf?, filterMap_filter_of_forall]
  intro line member other
  cases reading : line.reading with
  | setting set value => exact absurd reading (apart.setting line member other set value)
  | ignored | header | transition | faulty => rfl

/-- The other lines open all blocks. -/
theorem headerStates_filter (apart : ToldApart lines) :
    headerStates (lines.filter (!·.sets)) = headerStates lines := by
  rw [headerStates, headerStates, filterMap_filter_of_forall]
  intro line member sets
  have opensNone := apart.header line member (by simpa using sets)
  cases reading : line.reading with
  | header state => rw [reading] at opensNone; cases opensNone
  | ignored | setting | transition | faulty => rfl

/-- The other lines make all declarations. -/
theorem flatMap_declarations_filter (apart : ToldApart lines) (blank : Symbol) :
    (lines.filter (!·.sets)).flatMap (SourceLine.declarations blank) =
      lines.flatMap (SourceLine.declarations blank) := by
  refine flatMap_filter_of_forall fun line member sets => ?_
  have declaresNothing := apart.transition line member (by simpa using sets)
  cases reading : line.reading with
  | transition state symbols action => exact absurd reading (declaresNothing state symbols action)
  | ignored | setting | header | faulty => simp only [SourceLine.declarations, reading]

/-- Lines say what the two kinds of them say. -/
theorem saysSameAs_of_filter_eq (firstApart : ToldApart first) (secondApart : ToldApart second)
    (settings : second.filter SourceLine.sets = first.filter SourceLine.sets)
    (others : second.filter (!·.sets) = first.filter (!·.sets)) :
    (Document.ofLines second).SaysSameAs (Document.ofLines first) := by
  have set (field : Field) : settingOf? field second = settingOf? field first := by
    rw [← settingOf?_filter secondApart, settings, settingOf?_filter firstApart]
  have opened : headerStates second = headerStates first := by
    rw [← headerStates_filter secondApart, others, headerStates_filter firstApart]
  have declared (blank : Symbol) : second.flatMap (SourceLine.declarations blank) =
      first.flatMap (SourceLine.declarations blank) := by
    rw [← flatMap_declarations_filter secondApart, others, flatMap_declarations_filter firstApart]
  have perm : second.Perm first := by
    have parts := List.filter_append_perm SourceLine.sets second
    rw [settings, others] at parts
    exact parts.symm.trans (List.filter_append_perm SourceLine.sets first)
  have blank : (Document.ofLines second).blank = (Document.ofLines first).blank := by
    simp only [Document.ofLines, set]
  refine ⟨?_, blank, ?_, opened, ?_, ?_⟩
  · simp only [Document.ofLines, set, opened]
  · simp only [Document.ofLines, set]
  · simp only [Document.table, Document.ofLines, set, declared]
  · refine List.Perm.map _ ((perm_problems_ofLines second).trans ?_)
    rw [blank, declared]
    exact ((perm.filterMap _).append_right _).trans (perm_problems_ofLines first).symm

end Kinds

/-! ### Sources -/

section Sources

variable {first second : String}

/-- The lines of a text, each as if its number were forgotten. -/
def unnumbered (text : List Char) : List (Nat × List Char) :=
  (lines text).map fun raw => (0, raw)

/-- The lines of a source whose numbers are forgotten are read from the texts alone. -/
theorem sourceLines_unplaced (source : String) :
    (sourceLines source).map (SourceLine.relabelled .unplaced) =
      readLines none (unnumbered source.toList) := by
  have texts : (numberFrom 1 (lines source.toList)).map (fun part => (0, part.2)) =
      unnumbered source.toList := by
    conv => rhs; rw [unnumbered, ← map_snd_numberFrom 1 (lines source.toList)]
    rw [List.map_map]
    rfl
  rw [← texts]
  exact (readLines_relabelled (fun _ => 0) none (numberFrom 1 (lines source.toList))).symm

/-- A source whose setting lines are moved says the same: it has the same start state, blank and
input, it declares the same states, each state does the same with each symbol, in the same order,
and the same problems are reported, on other lines and in another order at most. -/
theorem saysSameAs_of_movesSettings (moves : MovesSettings first second) :
    (Document.read second).SaysSameAs (Document.read first) := by
  -- Numbers are forgotten first, since a line that is moved, and every line behind it, has another.
  have settings : (readLines none (unnumbered second.toList)).filter SourceLine.sets =
      (readLines none (unnumbered first.toList)).filter SourceLine.sets := by
    simp only [filter_sets_readLines, unnumbered, List.filter_map, Function.comp_def,
      moves.settings]
  have others : (readLines none (unnumbered second.toList)).filter (!·.sets) =
      (readLines none (unnumbered first.toList)).filter (!·.sets) := by
    simp only [filter_others_readLines, unnumbered, List.filter_map, Function.comp_def,
      moves.others]
  have moved := saysSameAs_of_filter_eq (toldApart_readLines none (unnumbered first.toList))
    (toldApart_readLines none (unnumbered second.toList)) settings others
  rw [← sourceLines_unplaced, ← sourceLines_unplaced] at moved
  exact (saysSameAs_unplaced (sourceLines second)).trans
    (moved.trans (saysSameAs_unplaced (sourceLines first)).symm)

/-- Two settings, of which one is no good, are moved into the middle of a block. -/
theorem saysSameAs_of_movesSettings_midBlock :
    MovesSettings "blank: x\ninput: 0 1\ntable:\ns:\n  ['', 0]: R\n  x: L\n"
        "table:\ns:\n  ['', 0]: R\nblank: x\n  x: L\ninput: 0 1" ∧
      (Document.read "table:\ns:\n  ['', 0]: R\nblank: x\n  x: L\ninput: 0 1").SaysSameAs
        (Document.read "blank: x\ninput: 0 1\ntable:\ns:\n  ['', 0]: R\n  x: L\n") := by
  have moves : MovesSettings "blank: x\ninput: 0 1\ntable:\ns:\n  ['', 0]: R\n  x: L\n"
      "table:\ns:\n  ['', 0]: R\nblank: x\n  x: L\ninput: 0 1" :=
    ⟨by decide +kernel, by decide +kernel⟩
  exact ⟨moves, saysSameAs_of_movesSettings moves⟩

end Sources

end TapeLab.Structured
