import TapeLab.Proofs.Console.Line
import TapeLab.Proofs.Settings.Saving
import TapeLab.Proofs.Text.Lines
import TapeLab.Session.Editing
import TapeLab.Session.Notice

/-!
# The wording of notices

Every text that a notice shows with style tags is a line of the program's own markup, with texts
put in (`Notice.lines`, `markedUp_event`).  All but five of the texts from outside are escaped; the
five that are not are those that a notice exposes (`Notice.exposed`).  If no tag begins in them, the
lines of a notice that a session can mean have no tags but those of their markup
(`Notice.Meant.worded`, `Line.activeTags_sublist`), and a terminal that shows what nests does not
refuse it (`refusal?_eq_none`).
-/

namespace TapeLab.Session

open Console Json

/-! ### Lines -/

/-- A text of the program's own that is always the same. -/
def fixedLine (text : String) : Line where
  start := text

/-- A cell of a table. -/
def cellLine (filling : Filling) : Line where
  start := ""
  rest := [(filling, "")]

/-- The cells of a rule. -/
def ruleLines (rule : Rule) : List Line :=
  cellLine (.own (((rule.line.filter (· != 0)).map toString).getD "")) ::
    [rule.state, rule.read, writtenCell rule, String.singleton rule.move.letter,
      rule.next].map fun text => cellLine (.guarded text)

/-- The cells of a line of the history. -/
def historyLines (row : Simulation.HistoryRow) : List Line :=
  [cellLine (.own (toString row.steps)), cellLine (.guarded row.state),
    cellLine (.own (toString row.head)), cellLine (.guarded row.symbol),
    cellLine (.own row.status.word)]

/-- The cells of a machine file. -/
def fileLines (numbered : Nat × Path) : List Line :=
  [cellLine (.own (toString numbered.1)), cellLine (.bare numbered.2.name)]

/-- The lines of a notice. -/
def Notice.lines : Notice → List Line
  | .question _ | .picture _ _ | .pause _ => []
  | .complaint text => [fixedLine text]
  | .noSettings path => [⟨"[yellow]", [(.bare path, " not found, using defaults.[/yellow]")]⟩]
  | .refused fault => [⟨"[red]", [(.guarded fault.message, "[/red]")]⟩]
  | .skipped problem => [⟨"[yellow]Skipped ", [(.guarded problem.message, "[/yellow]")]⟩]
  | .summary definition =>
    [⟨"[cyan]", [(.own definition.summary, " ("),
      (.own definition.dialect.name, " syntax).[/cyan]")]⟩]
  | .nothingToRun fault => [⟨"[red]", [(.own fault.message, "[/red]")]⟩]
  | .files paths =>
    ["Index", "Machine File"].map fixedLine ++ (Text.numberFrom 0 paths).flatMap fileLines
  | .unreadable fault => [⟨"[red]", [(.bare fault.message, "[/red]")]⟩]
  | .menu machine =>
    if machine.isEmpty then [fixedLine "\n[bold cyan]Turing Tape Simulator[/bold cyan]"]
    else [⟨"\n[bold cyan]Turing Tape Simulator[/bold cyan] [dim](", [(.bare machine, ")[/dim]")]⟩]
  | .item offered => [fixedLine ("[" ++ offered.key ++ "] " ++ offered.label)]
  | .noMachine => [fixedLine "[red]Load a machine first.[/red]"]
  | .stopped => [fixedLine "[yellow]Machine has stopped. Reset to run it again.[/yellow]"]
  | .rules simulation =>
    ["Transition Table", "Line", "State", "Read", "Write", "Move", "Next"].map fixedLine ++
      simulation.table.rules.flatMap ruleLines
  | .history simulation =>
    ["Step History", "Step", "State", "Head", "Symbol", "Status"].map fixedLine ++
      simulation.historyRows.flatMap historyLines
  | .noHistory =>
    [fixedLine
      "[yellow]No history recorded. Enable 'Keep step history' in Edit Config.[/yellow]"]
  | .interrupted => [fixedLine "[yellow]Paused.[/yellow]"]
  | .cutOff taken =>
    [⟨"[yellow]Stopped after ",
      [(.own (Text.grouped taken), " steps (max_steps reached).[/yellow]")]⟩]
  | .halted simulation =>
    [⟨"[green]Halted in state '", [(.bare simulation.config.state, "'. Tape: "),
      (.guarded simulation.tapeText, "[/green]")]⟩]
  | .editing => [fixedLine "\n[bold]Edit Configuration[/bold]"]
  | .saved => [fixedLine "[green]Configuration updated successfully.[/green]"]
  | .notSaved fault => [⟨"[red]Configuration not saved: ", [(.own fault.message, "[/red]")]⟩]
  | .goodbye => [fixedLine "[bold green]Goodbye![/bold green]"]

/-- The texts in a notice that come from outside and are shown as they are. -/
def Notice.exposed : Notice → List String
  | .noSettings path => [path]
  | .files paths => paths.map Path.name
  | .unreadable fault => [fault.message]
  | .menu machine => [machine]
  | .halted simulation => [simulation.config.state]
  | _ => []

/-- The texts that a notice shows with style tags are its lines. -/
theorem markedUp_event [Terminal] (notice : Notice) :
    (notice.event Terminal.escape).markedUp = notice.lines.map Line.shown := by
  cases notice with
  | menu machine =>
      simp only [Notice.event, Notice.lines, Event.markedUp]
      split <;> simp [fixedLine, Line.shown, Filling.shown, ← String.append_assoc]
  | files paths =>
      simp [Notice.event, Notice.lines, Event.markedUp, fileSheet, fixedLine, Line.shown,
        List.map_flatMap, List.flatMap_map, fileLines, cellLine, Filling.shown]
  | rules simulation =>
      simp [Notice.event, Notice.lines, Event.markedUp, ruleSheet, ruleRow, centered, fixedLine,
        Line.shown, List.map_flatMap, List.flatMap_map, ruleLines, cellLine, Filling.shown]
  | history simulation =>
      simp [Notice.event, Notice.lines, Event.markedUp, historySheet, historyRow, fixedLine,
        Line.shown, List.map_flatMap, List.flatMap_map, historyLines, cellLine, Filling.shown]
  | _ => simp [Notice.event, Notice.lines, Event.markedUp, fixedLine, Line.shown, Filling.shown]

/-! ### Plain texts -/

/-- Counts are plain. -/
theorem unmarked_toString (number : Nat) : Unmarked (toString number) := by
  intro c member
  rw [Nat.toString_eq_ofList_toDigits, String.toList_ofList] at member
  exact unmarked_of_isDigit (Nat.isDigit_of_mem_toDigits (by omega) (by omega) member)

theorem unmarked_toString_int (number : Int) : Unmarked (toString number) := by
  cases number with
  | ofNat number => exact unmarked_toString number
  | negSucc number =>
      have digits := unmarked_toString (number + 1)
      exact Unmarked.append (unmarked_of_chars ['-'] rfl rfl) digits

/-- So are counts with their thousands marked. -/
theorem unmarked_grouped (number : Nat) : Unmarked (Text.grouped number) := by
  have grouping : ∀ digits c, c ∈ Text.groupLowestFirst digits → c = ',' ∨ c ∈ digits := by
    intro digits c member
    induction digits using Text.groupLowestFirst.induct with
    | case1 first second third fourth rest inductionHypothesis =>
        simp only [Text.groupLowestFirst, List.mem_cons] at member inductionHypothesis ⊢
        tauto
    | case2 digits short =>
        rw [Text.groupLowestFirst.eq_2 digits short] at member
        exact Or.inr member
  intro c member
  rw [Text.grouped, String.toList_ofList, List.mem_reverse] at member
  rcases grouping _ c member with rfl | digit
  · decide
  · exact unmarked_of_isDigit
      (Nat.isDigit_of_mem_toDigits (by omega) (by omega) (List.mem_reverse.mp digit))

theorem unmarked_summary (definition : Definition) : Unmarked definition.summary := by
  have parsed : Unmarked " rules parsed" := unmarked_of_chars _ rfl rfl
  have comma : Unmarked ", " := unmarked_of_chars _ rfl rfl
  have skipped : Unmarked " lines skipped" := unmarked_of_chars _ rfl rfl
  have read := (unmarked_toString definition.rules.length).append parsed
  unfold Definition.summary
  split
  · exact read
  · exact ((read.append comma).append (unmarked_toString _)).append skipped

theorem unmarked_noRules (problems : Nat) : Unmarked (Fault.noRules problems).message := by
  have plain : Unmarked "Machine has no transition rules; nothing to run." :=
    unmarked_of_chars _ rfl rfl
  have bracket : Unmarked " (" := unmarked_of_chars _ rfl rfl
  have lines : Unmarked " lines could not be parsed)" := unmarked_of_chars _ rfl rfl
  change Unmarked (if (problems == 0) = true then _ else
    _ ++ " (" ++ toString problems ++ " lines could not be parsed)")
  split
  · exact plain
  · exact ((plain.append bracket).append (unmarked_toString problems)).append lines

theorem unmarked_kindName (kind : Kind) : Unmarked kind.name := by
  cases kind <;> exact unmarked_of_chars _ rfl rfl

/-- The names of settings and of kinds of values are plain. -/
theorem unmarked_of_mem_settingKinds {setting : String × List Kind}
    (member : setting ∈ settingKinds) :
    Unmarked setting.1 ∧ Unmarked (kindNames setting.2) := by
  have names : ∀ setting ∈ settingKinds, Unmarked setting.1 := by
    simp only [settingKinds, List.forall_mem_cons, List.not_mem_nil, false_implies, implies_true,
      and_true]
    and_intros <;> exact unmarked_of_chars _ rfl rfl
  have kinds : ∀ setting ∈ settingKinds, setting.2 = [.integer, .float] ∨
      ∃ kind, setting.2 = [kind] := by
    simp [settingKinds]
  refine ⟨names setting member, ?_⟩
  rcases kinds setting member with two | ⟨kind, one⟩
  · rw [two]
    have brace : Unmarked "(" := unmarked_of_chars _ rfl rfl
    have comma : Unmarked ", " := unmarked_of_chars _ rfl rfl
    have last : Unmarked ")" := unmarked_of_chars _ rfl rfl
    exact (brace.append (((unmarked_kindName .integer).append comma).append
      (unmarked_kindName .float))).append last
  · rw [one]
    exact unmarked_kindName kind

/-- What the check of settings complains of is plain: it names no setting but those that must be
there. -/
theorem unmarked_of_check {entries : Settings.Entries} {fault : SettingsFault}
    (refused : Settings.check entries = .error fault) : Unmarked fault.message := by
  have missing : Unmarked "Missing required configuration key: " :=
    unmarked_of_chars _ rfl rfl
  have about : Unmarked "Config key '" := unmarked_of_chars _ rfl rfl
  have expected : Unmarked "' expected " := unmarked_of_chars _ rfl rfl
  have got : Unmarked ", got " := unmarked_of_chars _ rfl rfl
  have stop : Unmarked "." := unmarked_of_chars _ rfl rfl
  unfold Settings.check at refused
  cases kinds : settingKinds.forM fun setting =>
      Settings.checkKind entries setting.1 setting.2 with
  | error other =>
      rw [kinds] at refused
      cases refused
      obtain ⟨setting, member, failed⟩ := exists_of_forM_error kinds
      obtain ⟨name, allowed⟩ := unmarked_of_mem_settingKinds member
      unfold Settings.checkKind at failed
      split at failed
      · cases failed
        exact missing.append name
      · split at failed
        · cases failed
        · cases failed
          exact (((((about.append name).append expected).append allowed).append got).append
            (unmarked_kindName _)).append stop
  | ok passed =>
      rw [kinds] at refused
      rcases Settings.eq_of_checkRanges_error refused with rfl | rfl | rfl <;>
        exact unmarked_of_chars _ rfl rfl

/-- An edit that is refused is refused with a plain reason. -/
theorem unmarked_of_saveEdited {entries : Settings.Entries} {path : String}
    {workspace : Workspace} {fault : Fault}
    (fails : ((saveEdited entries path).run workspace).1 = .error fault)
    (refuses : refusesEdit fault = true) : Unmarked fault.message := by
  cases checked : Settings.check entries with
  | error reason =>
      rw [saveEdited, Settings.ofEntries_eq_error checked] at fails
      cases fails
      exact unmarked_of_check checked
  | ok accepted =>
      have saving : Workspace.FailsInStorage (saveEdited entries path) := by
        rw [saveEdited, Settings.ofEntries_eq_ok checked]
        exact (Settings.save_failsInStorage checked path usualRoom).bind fun _ => .pure _
      obtain ⟨⟨cause, place⟩, rfl⟩ := saving workspace fault fails
      obtain rfl : cause = .nullInName := by simpa [refusesEdit] using refuses
      exact unmarked_of_chars "embedded null byte".toList rfl rfl

/-- The texts of the program's own in a summary. -/
theorem unmarked_dialectName (dialect : Dialect) : Unmarked dialect.name := by
  cases dialect <;> exact unmarked_of_chars _ rfl rfl

/-! ### What is meant -/

/-- What is said to answers that cannot be used. -/
def complaints : List String :=
  [Question.wholeNumberComplaint, Question.numberComplaint, Question.choiceComplaint,
    Question.yesNoComplaint]

/-- A notice as a session means it: it is shown for a reason of the kind that its place is for. -/
def Notice.Meant : Notice → Prop
  | .complaint text => text ∈ complaints
  | .nothingToRun fault => ∃ problems, fault = .noRules problems
  | .files paths => paths ≠ []
  | .unreadable fault => fault.concernsFile = true
  | .history simulation => simulation.history.isEmpty = false
  | .halted simulation => simulation.halted = true
  | .notSaved fault => refusesEdit fault = true ∧
    ∃ entries path workspace, ((saveEdited entries path).run workspace).1 = .error fault
  | _ => True

theorem worded_fixedLine {text : String} (chars : List Char) (spelled : text = String.ofList chars)
    (complete : Line.settled chars = true)
    (nest : (Text.nestsIn [] (Text.activeTagsFrom 0 chars ++ []) && true) = true) :
    (fixedLine text).Worded :=
  .of_chars chars spelled complete Line.filled_nil nest

/-- A filling at the end of a line. -/
theorem filled_last {filling : Filling} {markup : String} (chars : List Char)
    (spelled : markup = String.ofList chars)
    (complete : (Line.settled chars && Filling.fits filling.isGuarded chars) = true)
    (proper : filling.Proper) :
    Line.Filled [(filling, markup)] (Text.activeTagsFrom 0 chars ++ []) :=
  .cons chars spelled complete (.inr rfl) proper Line.filled_nil

theorem worded_cellLine {filling : Filling} (proper : filling.Proper) :
    (cellLine filling).Worded :=
  .of_chars [] rfl rfl (filled_last [] rfl (by cases filling <;> rfl) proper) rfl

theorem worded_of_mem_ruleLines {rule : Rule} {line : Line} (member : line ∈ ruleLines rule) :
    line.Worded := by
  rcases List.mem_cons.mp member with rfl | member
  · refine worded_cellLine ?_
    cases rule.line.filter (· != 0) with
    | none => exact unmarked_of_chars [] rfl rfl
    | some number => exact unmarked_toString_int number
  · obtain ⟨text, -, rfl⟩ := List.mem_map.mp member
    exact worded_cellLine trivial

theorem worded_of_mem_historyLines {row : Simulation.HistoryRow} {line : Line}
    (member : line ∈ historyLines row) : line.Worded := by
  simp only [historyLines, List.mem_cons, List.not_mem_nil, or_false] at member
  rcases member with rfl | rfl | rfl | rfl | rfl
  · exact worded_cellLine (unmarked_toString _)
  · exact worded_cellLine trivial
  · exact worded_cellLine (unmarked_toString _)
  · exact worded_cellLine trivial
  · refine worded_cellLine ?_
    cases row.status <;> exact unmarked_of_chars _ rfl rfl

theorem worded_of_mem_fileLines {numbered : Nat × Path} {line : Line}
    (member : line ∈ fileLines numbered) : line.Worded := by
  simp only [fileLines, List.mem_cons, List.not_mem_nil, or_false] at member
  rcases member with rfl | rfl
  · exact worded_cellLine (unmarked_toString _)
  · exact worded_cellLine trivial

/-- The titles of tables and of their columns are worded. -/
theorem worded_title {title : String}
    (member : title ∈ ["Transition Table", "Line", "State", "Read", "Write", "Move", "Next",
      "Step History", "Step", "Head", "Symbol", "Status", "Index", "Machine File"]) :
    (fixedLine title).Worded := by
  simp only [List.mem_cons, List.not_mem_nil, or_false] at member
  rcases member with rfl | rfl | rfl | rfl | rfl | rfl | rfl | rfl | rfl | rfl | rfl | rfl | rfl |
    rfl <;> exact worded_fixedLine _ rfl rfl rfl

theorem worded_complaint {text : String} (known : text ∈ complaints) :
    (fixedLine text).Worded := by
  simp only [complaints, List.mem_cons, List.not_mem_nil, or_false] at known
  rcases known with rfl | rfl | rfl | rfl <;> exact worded_fixedLine _ rfl rfl rfl

theorem worded_item (offered : MenuItem) :
    (fixedLine ("[" ++ offered.key ++ "] " ++ offered.label)).Worded := by
  have spelled : "[" ++ offered.key ++ "] " ++ offered.label ∈
      ["[1] Load Machine File", "[2] Load Example", "[3] Show Transition Table", "[4] Step",
       "[5] Run", "[6] Reset", "[7] Show History", "[8] Edit Config", "[9] Exit"] := by
    cases offered <;> decide
  generalize "[" ++ offered.key ++ "] " ++ offered.label = text at spelled ⊢
  simp only [List.mem_cons, List.not_mem_nil, or_false] at spelled
  rcases spelled with rfl | rfl | rfl | rfl | rfl | rfl | rfl | rfl | rfl <;>
    exact worded_fixedLine _ rfl rfl rfl

/-- The lines of a notice that is meant are worded. -/
theorem Notice.Meant.worded {notice : Notice} (meant : notice.Meant) {line : Line}
    (member : line ∈ notice.lines) : line.Worded := by
  cases notice with
  | question _ | picture _ _ | pause _ => cases member
  | complaint text =>
      rw [List.mem_singleton.mp member]
      exact worded_complaint meant
  | noSettings _ | refused _ | skipped _ | unreadable _ =>
      rw [List.mem_singleton.mp member]
      exact .of_chars _ rfl rfl (filled_last _ rfl rfl trivial) rfl
  | summary definition =>
      rw [List.mem_singleton.mp member]
      exact .of_chars _ rfl rfl (.cons _ rfl rfl (.inl rfl) (unmarked_summary definition)
        (filled_last _ rfl rfl (unmarked_dialectName definition.dialect))) rfl
  | nothingToRun fault =>
      obtain ⟨problems, rfl⟩ := meant
      rw [List.mem_singleton.mp member]
      exact .of_chars _ rfl rfl (filled_last _ rfl rfl (unmarked_noRules problems)) rfl
  | files paths =>
      rcases List.mem_append.mp member with head | cell
      · obtain ⟨title, known, rfl⟩ := List.mem_map.mp head
        exact worded_title (by simp at known ⊢; tauto)
      · obtain ⟨numbered, -, inside⟩ := List.mem_flatMap.mp cell
        exact worded_of_mem_fileLines inside
  | menu machine =>
      rw [Notice.lines] at member
      split at member
      · rw [List.mem_singleton.mp member]
        exact worded_fixedLine _ rfl rfl rfl
      · rw [List.mem_singleton.mp member]
        exact .of_chars _ rfl rfl (filled_last _ rfl rfl trivial) rfl
  | item offered =>
      rw [List.mem_singleton.mp member]
      exact worded_item offered
  | rules simulation =>
      rcases List.mem_append.mp member with head | cell
      · obtain ⟨title, known, rfl⟩ := List.mem_map.mp head
        exact worded_title (by simp at known ⊢; tauto)
      · obtain ⟨rule, -, inside⟩ := List.mem_flatMap.mp cell
        exact worded_of_mem_ruleLines inside
  | history simulation =>
      rcases List.mem_append.mp member with head | cell
      · obtain ⟨title, known, rfl⟩ := List.mem_map.mp head
        exact worded_title (by simp at known ⊢; tauto)
      · obtain ⟨row, -, inside⟩ := List.mem_flatMap.mp cell
        exact worded_of_mem_historyLines inside
  | cutOff taken =>
      rw [List.mem_singleton.mp member]
      exact .of_chars _ rfl rfl (filled_last _ rfl rfl (unmarked_grouped taken)) rfl
  | halted simulation =>
      rw [List.mem_singleton.mp member]
      exact .of_chars _ rfl rfl (.cons _ rfl rfl (.inl rfl) trivial
        (filled_last _ rfl rfl trivial)) rfl
  | notSaved fault =>
      obtain ⟨refuses, entries, path, workspace, fails⟩ := meant
      rw [List.mem_singleton.mp member]
      exact .of_chars _ rfl rfl
        (filled_last _ rfl rfl (unmarked_of_saveEdited fails refuses)) rfl
  | _ =>
      rw [List.mem_singleton.mp member]
      exact worded_fixedLine _ rfl rfl rfl

/-! ### Tags -/

/-- The tags of the markup of a notice. -/
def Notice.tags (notice : Notice) : List String :=
  notice.lines.flatMap Line.tags

/-- The lines of a notice without what was put into them. -/
def Notice.outline (notice : Notice) : List Line :=
  notice.lines.map Line.outline

/-- No tag begins in what a notice exposes. -/
def Notice.Harmless (notice : Notice) : Prop :=
  ∀ text ∈ notice.exposed, Text.beginsTag text.toList = false

instance (notice : Notice) : Decidable notice.Harmless :=
  inferInstanceAs (Decidable (∀ text ∈ notice.exposed, _))

/-- Notices of one outline have the same tags in their markup. -/
theorem Notice.tags_outline (notice : Notice) : notice.outline.flatMap Line.tags = notice.tags := by
  simp only [outline, tags, List.flatMap_map, Line.tags_outline]

/-- A notice is harmless if what it exposes is. -/
theorem Notice.Harmless.line {notice : Notice} (harmless : notice.Harmless) {line : Line}
    (member : line ∈ notice.lines) : line.Harmless := by
  have cell {filling : Filling} (fits : filling.Harmless) : (cellLine filling).Harmless := by
    intro part inside
    rw [List.mem_singleton.mp inside]
    exact fits
  cases notice with
  | question _ | picture _ _ | pause _ => cases member
  | noSettings _ | unreadable _ | halted _ =>
      rw [List.mem_singleton.mp member]
      simpa [Line.Harmless, Filling.Harmless, Notice.Harmless, Notice.exposed] using harmless
  | menu machine =>
      rw [Notice.lines] at member
      split at member
      · rw [List.mem_singleton.mp member]
        exact nofun
      · rw [List.mem_singleton.mp member]
        simpa [Line.Harmless, Filling.Harmless, Notice.Harmless, Notice.exposed] using harmless
  | files paths =>
      rcases List.mem_append.mp member with head | inside
      · obtain ⟨title, -, rfl⟩ := List.mem_map.mp head
        exact nofun
      · obtain ⟨⟨number, path⟩, listed, found⟩ := List.mem_flatMap.mp inside
        simp only [fileLines, List.mem_cons, List.not_mem_nil, or_false] at found
        rcases found with rfl | rfl
        · exact cell trivial
        · exact cell (harmless path.name
            (List.mem_map_of_mem (Text.mem_of_mem_numberFrom listed)))
  | rules simulation =>
      rcases List.mem_append.mp member with head | inside
      · obtain ⟨title, -, rfl⟩ := List.mem_map.mp head
        exact nofun
      · obtain ⟨rule, -, found⟩ := List.mem_flatMap.mp inside
        rcases List.mem_cons.mp found with rfl | found
        · exact cell trivial
        · obtain ⟨text, -, rfl⟩ := List.mem_map.mp found
          exact cell trivial
  | history simulation =>
      rcases List.mem_append.mp member with head | inside
      · obtain ⟨title, -, rfl⟩ := List.mem_map.mp head
        exact nofun
      · obtain ⟨row, -, found⟩ := List.mem_flatMap.mp inside
        simp only [historyLines, List.mem_cons, List.not_mem_nil, or_false] at found
        rcases found with rfl | rfl | rfl | rfl | rfl <;> exact cell trivial
  | _ =>
      rw [List.mem_singleton.mp member]
      simp [Line.Harmless, Filling.Harmless, fixedLine]

section Shown

variable [Terminal] {notice : Notice}

/-- No text right before a tag of the markup of a notice ends, as it is shown, in an odd number of
backslashes. -/
def Notice.Tidy (notice : Notice) : Prop :=
  ∀ line ∈ notice.lines, line.Tidy

instance (notice : Notice) : Decidable notice.Tidy :=
  inferInstanceAs (Decidable (∀ line ∈ notice.lines, _))

/-- The tags that take effect in a notice are those of its lines. -/
theorem activeTags_event (notice : Notice) :
    (notice.event Terminal.escape).activeTags =
      notice.lines.flatMap fun line => Text.activeTags line.shown := by
  rw [Event.activeTags, markedUp_event, List.flatMap_map]

/-- The tags that take effect in a notice are those of its markup, if nothing from outside can
interfere. -/
theorem activeTags_event_eq (disarms : Terminal.Disarms) (meant : notice.Meant)
    (harmless : notice.Harmless) (tidy : notice.Tidy) :
    (notice.event Terminal.escape).activeTags = notice.tags := by
  rw [activeTags_event]
  refine List.flatMap_congr fun line member => ?_
  have worded := meant.worded member
  exact Line.activeTags_eq disarms worded.sound worded.proper (harmless.line member)
    (tidy line member)

/-- A terminal that shows what nests shows such a notice. -/
theorem refusal?_eq_none (disarms : Terminal.Disarms) (nested : Terminal.ShowsNested)
    (meant : notice.Meant) (harmless : notice.Harmless) : notice.refusal? = none := by
  rw [Notice.refusal?, markedUp_event, List.findSome?_eq_none_iff]
  intro text shown
  obtain ⟨line, member, rfl⟩ := List.mem_map.mp shown
  have worded := meant.worded member
  exact nested _ (Line.nests_shown disarms worded.sound worded.proper (harmless.line member)
    worded.nests)

/-- So it refuses a notice only if a tag begins in what that exposes. -/
theorem exists_beginsTag_of_refused (disarms : Terminal.Disarms) (nested : Terminal.ShowsNested)
    (meant : notice.Meant) {failure : Terminal.Failure}
    (refused : notice.refusal? = some failure) :
    ∃ text ∈ notice.exposed, Text.beginsTag text.toList = true := by
  by_contra none
  have harmless : notice.Harmless := by simpa [Notice.Harmless] using none
  rw [refusal?_eq_none disarms nested meant harmless] at refused
  cases refused

end Shown

end TapeLab.Session
