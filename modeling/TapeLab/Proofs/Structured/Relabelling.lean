import TapeLab.Machine.Relabelling
import TapeLab.Structured.Source

/-!
# Structured sources with other lines and texts

What the lines of a structured source say does not hang on their numbers and texts.  With other
ones the same declarations are kept and reported, and every state does the same
(`Structured.blocks_relabelled`).  If the lines stay in order, so do the problems, and the machine
is the same but for what it remembers of its source (`Structured.definition_relabelled`).
-/

namespace TapeLab.Structured

variable (labels : Relabelling)

/-- A line with another number and another text. -/
def SourceLine.relabelled (line : SourceLine) : SourceLine :=
  { line with number := labels.number line.number, text := labels.text line.text }

/-- Lines are read as they are at their own places. -/
theorem readLines_relabelled (number : Nat → Nat) (current : Option StateName)
    (numbered : List (Nat × List Char)) :
    readLines current (numbered.map fun part => (number part.1, part.2)) =
      (readLines current numbered).map (SourceLine.relabelled ⟨number, id⟩) := by
  induction numbered generalizing current with
  | nil => rfl
  | cons part later inductionHypothesis =>
      obtain ⟨place, raw⟩ := part
      simp only [List.map_cons, readLines, inductionHypothesis]
      rfl

/-- A declaration on a line with another number and another text. -/
def Declaration.relabelled (declaration : Declaration) : Declaration :=
  { declaration with
    line := labels.number declaration.line
    text := labels.text declaration.text }

/-- A state's declarations on other lines. -/
def blockRelabelled (block : StateName × List Declaration) : StateName × List Declaration :=
  (block.1, block.2.map (Declaration.relabelled labels))

/-- A line declares the same under another label. -/
theorem declarations_relabelled (blank : Symbol) (line : SourceLine) :
    (line.relabelled labels).declarations blank =
      (line.declarations blank).map (Declaration.relabelled labels) := by
  obtain ⟨number, text, reading⟩ := line
  cases reading with
  | transition state symbols action =>
      simp only [SourceLine.declarations, SourceLine.relabelled, List.map_map, Function.comp_def,
        Declaration.relabelled]
  | ignored | setting | header | faulty => rfl

/-- So do all lines together. -/
theorem flatMap_declarations_relabelled (blank : Symbol) (lines : List SourceLine) :
    (lines.map (SourceLine.relabelled labels)).flatMap (SourceLine.declarations blank) =
      (lines.flatMap (SourceLine.declarations blank)).map (Declaration.relabelled labels) := by
  simp only [List.flatMap_map, List.map_flatMap, declarations_relabelled]

/-- A line is the same problem under another label. -/
theorem problem?_relabelled (line : SourceLine) :
    (line.relabelled labels).problem? = line.problem?.map (Problem.relabelled labels) := by
  obtain ⟨number, text, reading⟩ := line
  cases reading <;> rfl

/-- The first declarations for their keys are so under other labels too. -/
theorem firstsOf_relabelled (known : List (StateName × Symbol)) (declarations : List Declaration) :
    firstsOf known (declarations.map (Declaration.relabelled labels)) =
      (firstsOf known declarations).map (Declaration.relabelled labels) := by
  induction declarations generalizing known with
  | nil => rfl
  | cons declaration later inductionHypothesis =>
      have sameKey : (declaration.relabelled labels).key = declaration.key := rfl
      simp only [List.map_cons, firstsOf, sameKey, inductionHypothesis]
      split <;> rfl

/-- So are the later ones. -/
theorem repeatsOf_relabelled (known : List (StateName × Symbol)) (declarations : List Declaration) :
    repeatsOf known (declarations.map (Declaration.relabelled labels)) =
      (repeatsOf known declarations).map (Declaration.relabelled labels) := by
  induction declarations generalizing known with
  | nil => rfl
  | cons declaration later inductionHypothesis =>
      have sameKey : (declaration.relabelled labels).key = declaration.key := rfl
      simp only [List.map_cons, repeatsOf, sameKey, inductionHypothesis]
      split <;> rfl

/-- Declarations are gathered by state whatever their labels are. -/
theorem byState_relabelled (declarations : List Declaration) :
    byState (declarations.map (Declaration.relabelled labels)) =
      (byState declarations).map (blockRelabelled labels) := by
  have sameState (declaration : Declaration) :
      (declaration.relabelled labels).state = declaration.state := rfl
  simp only [byState, blockRelabelled, List.map_map, List.filter_map, Function.comp_def, sameState]

/-- Settings do not hang on the labels of their lines. -/
theorem settingOf?_relabelled (field : Field) (lines : List SourceLine) :
    settingOf? field (lines.map (SourceLine.relabelled labels)) = settingOf? field lines := by
  simp only [settingOf?, List.filterMap_map, Function.comp_def, SourceLine.relabelled]

/-- Nor do the states whose blocks are opened. -/
theorem headerStates_relabelled (lines : List SourceLine) :
    headerStates (lines.map (SourceLine.relabelled labels)) = headerStates lines := by
  simp only [headerStates, List.filterMap_map, Function.comp_def, SourceLine.relabelled]

/-- The problems of some lines, those of lines that cannot be read before those of what is
declared again. -/
def reported (blank : Symbol) (lines : List SourceLine) : List Problem :=
  lines.filterMap SourceLine.problem? ++
    (repeatsOf [] (lines.flatMap (SourceLine.declarations blank))).map Declaration.duplicateProblem

/-- The same problems are reported under other labels. -/
theorem reported_relabelled (blank : Symbol) (lines : List SourceLine) :
    reported blank (lines.map (SourceLine.relabelled labels)) =
      (reported blank lines).map (Problem.relabelled labels) := by
  have faulty : (lines.map (SourceLine.relabelled labels)).filterMap SourceLine.problem? =
      (lines.filterMap SourceLine.problem?).map (Problem.relabelled labels) := by
    simp only [List.filterMap_map, List.map_filterMap, Function.comp_def, problem?_relabelled]
  have duplicate (declaration : Declaration) : (declaration.relabelled labels).duplicateProblem =
      declaration.duplicateProblem.relabelled labels := rfl
  simp only [reported, faulty, flatMap_declarations_relabelled, repeatsOf_relabelled,
    List.map_append, List.map_map, Function.comp_def, duplicate]

/-- Every state does the same, under other labels. -/
theorem blocks_relabelled (lines : List SourceLine) :
    (Document.ofLines (lines.map (SourceLine.relabelled labels))).blocks =
      (Document.ofLines lines).blocks.map (blockRelabelled labels) := by
  simp only [Document.ofLines, settingOf?_relabelled, flatMap_declarations_relabelled,
    firstsOf_relabelled, byState_relabelled]

/-- Problems stay in order if the lines do. -/
theorem mergeSort_relabelled (ordered : labels.KeepsOrder) (problems : List Problem) :
    (problems.map (Problem.relabelled labels)).mergeSort
        (fun before after => before.line ≤ after.line) =
      (problems.mergeSort fun before after => before.line ≤ after.line).map
        (Problem.relabelled labels) := by
  refine (List.map_mergeSort fun before _ after _ => ?_).symm
  simp only [Problem.relabelled, ordered before.line after.line]

/-- The same problems come in the same order if the lines do. -/
theorem problems_relabelled (ordered : labels.KeepsOrder) (lines : List SourceLine) :
    (Document.ofLines (lines.map (SourceLine.relabelled labels))).problems =
      (Document.ofLines lines).problems.map (Problem.relabelled labels) := by
  let blank := (settingOf? .blank lines).getD defaultBlank
  calc (Document.ofLines (lines.map (SourceLine.relabelled labels))).problems
      _ = (reported blank (lines.map (SourceLine.relabelled labels))).mergeSort
          (fun before after => before.line ≤ after.line) := by
        simp only [Document.ofLines, settingOf?_relabelled, reported, blank]
      _ = ((reported blank lines).mergeSort fun before after => before.line ≤ after.line).map
          (Problem.relabelled labels) := by
        rw [reported_relabelled, mergeSort_relabelled labels ordered]

/-- The rules of blocks are the same under other labels, but for these. -/
theorem flatMap_blockRelabelled (blank : Symbol) (blocks : List (StateName × List Declaration)) :
    (blocks.map (blockRelabelled labels)).flatMap
        (fun block => block.2.map (Declaration.rule blank)) =
      (blocks.flatMap fun block => block.2.map (Declaration.rule blank)).map
        (Rule.relabelled labels) := by
  simp only [blockRelabelled, List.flatMap_map, List.map_flatMap, List.map_map]
  rfl

/-- Lines with other labels, but in the same order, add up to the same machine, relabelled. -/
theorem definition_relabelled (ordered : labels.KeepsOrder) (lines : List SourceLine) :
    (Document.ofLines (lines.map (SourceLine.relabelled labels))).definition =
      (Document.ofLines lines).definition.relabelled labels := by
  have settings : (Document.ofLines (lines.map (SourceLine.relabelled labels))).start =
        (Document.ofLines lines).start ∧
      (Document.ofLines (lines.map (SourceLine.relabelled labels))).blank =
        (Document.ofLines lines).blank ∧
      (Document.ofLines (lines.map (SourceLine.relabelled labels))).input =
        (Document.ofLines lines).input := by
    simp only [Document.ofLines, settingOf?_relabelled, headerStates_relabelled, and_self]
  obtain ⟨start, blank, input⟩ := settings
  simp only [Document.definition, Document.rules, Definition.relabelled, start, blank, input,
    blocks_relabelled, problems_relabelled labels ordered, flatMap_blockRelabelled]

end TapeLab.Structured
