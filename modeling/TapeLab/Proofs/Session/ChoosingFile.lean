import TapeLab.Proofs.Session.Loading
import TapeLab.Proofs.Text.Digits
import TapeLab.Proofs.Workspace.Listing

/-!
# Answers at the load prompt

Whatever is answered when a machine file is asked for, the session goes on, with the machine of the
file or with a report of what keeps it from being loaded (`loadFile_ends`).  It breaks off in four
cases: the name of the machines directory is too long for any directory, the answer is made up of
digits that are no number, or the terminal refuses to show the name of a file that is listed or the
reason why one cannot be read, which it does only if a tag begins there.  An answer that is the
number of a listed file chooses that file, and every other one is a path (`chosenPath_cases`).
-/

namespace TapeLab.Session

open Console Fallible

variable {answer : String}

/-! ### What an answer chooses -/

/-- An answer that is made up of decimal digits, of any script, which name a number. -/
def Numbers (answer : String) (number : Nat) : Prop :=
  answer.toList ≠ [] ∧ ∃ values, answer.toList.map Text.decimalValue? = values.map some ∧
    Text.ofDigitValues values = number

/-- An answer that is made up of digits and is no number: one of them is a digit by name only, or
there are more of them than a number may have. -/
def Unnumbered (answer : String) : Prop :=
  answer.toList ≠ [] ∧ (∀ c ∈ answer.toList, Text.isDigitLike c = true) ∧
    ((∃ c ∈ answer.toList, Text.decimalValue? c = none) ∨
      Text.maxNumeralDigits < answer.toList.length)

/-- The path that an answer chooses among listed ones: that of the file with its number, or else the
answer itself. -/
def Chooses (paths : List Path) (answer path : String) : Prop :=
  (∃ number found, Numbers answer number ∧ paths[number]? = some found ∧ path = found.text) ∨
    (¬∃ number, Numbers answer number ∧ number < paths.length) ∧ path = answer

/-- Digits that have values are digits by name. -/
theorem Numbers.isDigitLike {number : Nat} (numbers : Numbers answer number) :
    ∀ c ∈ answer.toList, Text.isDigitLike c = true := by
  obtain ⟨-, values, same, -⟩ := numbers
  intro c member
  have valued : Text.decimalValue? c ∈ values.map some := same ▸ List.mem_map_of_mem member
  obtain ⟨value, -, found⟩ := List.mem_map.mp valued
  simp [Text.isDigitLike, ← found]

/-- The digits of an answer name one number. -/
theorem Numbers.unique {first second : Nat} (numbers : Numbers answer first)
    (others : Numbers answer second) : first = second := by
  obtain ⟨-, values, same, rfl⟩ := numbers
  obtain ⟨-, otherValues, otherSame, rfl⟩ := others
  rw [List.map_inj_right (fun _ _ => Option.some.inj) |>.mp (same.symm.trans otherSame)]

/-- An answer chooses a path, unless it is made up of digits that are no number. -/
theorem chosenPath_cases (paths : List Path) (answer : String) :
    (Unnumbered answer ∧ chosenPath paths answer = .error .unreadableIndex) ∨
    (¬Unnumbered answer ∧ ∃ path, chosenPath paths answer = .ok path ∧
      Chooses paths answer path) := by
  by_cases digits : answer.toList ≠ [] ∧ ∀ c ∈ answer.toList, Text.isDigitLike c = true
  · obtain ⟨nonempty, named⟩ := digits
    have isNumber : (answer.toList.isEmpty || !answer.toList.all Text.isDigitLike) = false := by
      simpa [nonempty] using named
    have reads := @Text.natural?_eq_some_iff _ nonempty named
    have fails := Text.natural?_eq_none_iff nonempty named
    rw [chosenPath, isNumber, if_neg Bool.false_ne_true]
    -- All characters are digits by name; only reading them tells whether they have values.
    cases read : Text.natural? answer.toList with
    | none => exact .inl ⟨⟨nonempty, named, fails.mp read⟩, rfl⟩
    | some number =>
        have numbers : Numbers answer number := ⟨nonempty, (reads.mp read).1⟩
        refine .inr ⟨fun unnumbered => ?_, _, rfl, ?_⟩
        · rw [fails.mpr unnumbered.2.2] at read
          cases read
        · cases listed : paths[number]? with
          | some found => exact .inl ⟨number, found, numbers, listed, rfl⟩
          | none =>
              refine .inr ⟨?_, rfl⟩
              rintro ⟨other, others, inside⟩
              rw [← numbers.unique others] at inside
              exact absurd inside (Nat.not_lt.mpr (List.getElem?_eq_none_iff.mp listed))
  · have isPath : (answer.toList.isEmpty || !answer.toList.all Text.isDigitLike) = true := by
      by_contra isNumber
      refine digits ?_
      simpa using isNumber
    refine .inr ⟨fun unnumbered => digits ⟨unnumbered.1, unnumbered.2.1⟩, answer, ?_,
      .inr ⟨?_, rfl⟩⟩
    · rw [chosenPath, isPath, if_pos rfl]
    · rintro ⟨number, numbers, -⟩
      exact digits ⟨numbers.1, numbers.isDigitLike⟩

/-! ### Choosing -/

/-- The name of the machines directory is too long for any directory. -/
def Unlistable (settings : Settings) (workspace : Workspace) : Prop :=
  MachineFile.TooLong settings.machinesDirectory workspace

/-- The machine of a file at its start, if there is one that has rules. -/
def loadedFrom (settings : Settings) (workspace : Workspace) (path : String) : Option Loaded :=
  ((MachineChoice.file path).given? workspace).bind fun definition =>
    loadedAs path (started settings definition)

/-- What keeps the machine of a file from being loaded, as it is reported: that its file cannot be
read, or that it has no rules. -/
inductive Hindrance (workspace : Workspace) (path : String) : Notice → Prop where
  | unread {fault : Fault}
      (fails : (MachineFile.read path).run workspace = (.error fault, workspace)) :
      Hindrance workspace path (.unreadable fault)
  | noRules {text : String} (found : MachineFile.textIn? path workspace = some text)
      (empty : (Source.read text).rules = []) :
      Hindrance workspace path (.nothingToRun (.noRules (Source.read text).problems.length))

/-- The last thing that was said is what keeps the machine of a file from being loaded. -/
def ReportsHindrance (workspace : Workspace) (path : String) (state : State) : Prop :=
  ∃ notice, Hindrance workspace path notice ∧ state.notices.back? = some notice

section Terminal

variable [Terminal] {settings : Settings} {before : State} {rest : List String}

/-- What is listed is shown. -/
def FilesShown (paths : List Path) : Prop :=
  ∀ notice ∈ listing paths, notice.refusal? = none

/-- What is listed is shown or refused, and refused only if a tag begins in the name of a file. -/
theorem listing_cases (disarms : Terminal.Disarms) (nested : Terminal.ShowsNested)
    (paths : List Path) :
    FilesShown paths ∨ ∃ failure, paths ≠ [] ∧ (Notice.files paths).refusal? = some failure ∧
      (∃ path ∈ paths, Text.beginsTag path.name.toList = true) ∧
      verdict (listing paths) = .error (.terminal failure) := by
  cases paths with
  | nil => exact .inl nofun
  | cons path others =>
      cases refused : (Notice.files (path :: others)).refusal? with
      | none => exact .inl (by simpa [FilesShown, listing] using refused)
      | some failure =>
          have meant : (Notice.files (path :: others)).Meant := List.cons_ne_nil path others
          obtain ⟨name, exposed, begins⟩ := exists_beginsTag_of_refused disarms nested meant refused
          obtain ⟨listed, member, rfl⟩ := List.mem_map.mp exposed
          exact .inr ⟨failure, nofun, rfl, ⟨listed, member, begins⟩,
            verdict_cons_of_some refused []⟩

/-- Choosing a path comes to what the answer chooses, once the files that were found are shown. -/
theorem run_choosePath (answered : before.answers = answer :: rest) {paths : List Path}
    (found : (MachineFile.findIn settings.machinesDirectory).run before.workspace =
      (.ok paths, before.workspace)) :
    ∃ between, Talks before between ∧ ExceptT.run (choosePath settings) before =
      (do
        verdict (listing paths)
        (chosenPath paths (Text.trimmed answer)).mapError .fault, between) := by
  have talks := choosePath_talks settings before
  have listed : ExceptT.run (onWorkspace (MachineFile.findIn settings.machinesDirectory)) before =
      (.ok paths, before) := by
    rw [run_onWorkspace, found]
    rfl
  have asked : fileQuestion.ask (answer :: rest) = ([], some (Text.trimmed answer, rest)) := rfl
  have asks := run_ask fileQuestion (before.telling (shownOf (listing paths)))
  rw [State.telling_answers, answered, asked] at asks
  have ended : (ExceptT.run (choosePath settings) before).1 = (do
      verdict (listing paths)
      (chosenPath paths (Text.trimmed answer)).mapError .fault) := by
    rw [choosePath, run_bind_ok listed, run_bind, run_forM_say]
    cases verdict (listing paths) with
    | error breakdown => rfl
    | ok shown =>
        simp only
        rw [run_bind_ok asks, run_settle]
        rfl
  rw [← ended]
  generalize ExceptT.run (choosePath settings) before = chosen at talks
  exact ⟨chosen.2, talks, rfl⟩

/-! ### Loading -/

/-- What is loaded from a file that can be read is its machine, after all that is to be said of it
was shown. -/
theorem run_loadFile_of_text (disarms : Terminal.Disarms) (nested : Terminal.ShowsNested)
    {path text : String} {between : State}
    (chosen : ExceptT.run (choosePath settings) before = (.ok path, between))
    (found : MachineFile.textIn? path between.workspace = some text)
    (succeeds : (MachineFile.read path).run between.workspace =
      (.ok (Source.read text), between.workspace)) :
    ExceptT.run (loadFile settings) before =
      (.ok (loadedFrom settings between.workspace path),
        between.telling (report (Source.read text))) := by
  have attempted : ExceptT.run (attempt Fault.concernsFile (MachineFile.read path)) between =
      (.ok (.ok (Source.read text)), between) := by
    rw [run_attempt, succeeds]
  have put := run_putOnBench_shown disarms nested settings (Source.read text) between
  rw [loadFile_eq, run_bind_ok chosen, run_bind_ok attempted, loadedFrom, MachineChoice.given?,
    found]
  simp only [run_bind_ok put]
  rfl

/-- Nothing is loaded from a file that cannot be read, and the reason is said. -/
theorem run_loadFile_of_fault {path : String} {between : State} {fault : Fault}
    (chosen : ExceptT.run (choosePath settings) before = (.ok path, between))
    (concerns : fault.concernsFile = true)
    (fails : (MachineFile.read path).run between.workspace = (.error fault, between.workspace)) :
    ExceptT.run (loadFile settings) before =
      ((verdict [.unreadable fault]).map fun _ => none,
        between.telling (shownOf [.unreadable fault])) := by
  have attempted : ExceptT.run (attempt Fault.concernsFile (MachineFile.read path)) between =
      (.ok (.error fault), between) := by
    rw [run_attempt, fails]
    simp [concerns]
  rw [loadFile_eq, run_bind_ok chosen, run_bind_ok attempted]
  simp only [run_bind, run_say]
  cases verdict [.unreadable fault] <;> rfl

/-- What is loaded from a path that was chosen is the machine of its file.  If there is none, the
reason is reported, unless it cannot be shown. -/
theorem run_loadFile_of_chosen (disarms : Terminal.Disarms) (nested : Terminal.ShowsNested)
    {path : String} {between : State}
    (chosen : ExceptT.run (choosePath settings) before = (.ok path, between)) :
    (∃ after, Talks between after ∧
      (∀ fault, (MachineFile.read path).run between.workspace = (.error fault, between.workspace) →
        (Notice.unreadable fault).refusal? = none) ∧
      ExceptT.run (loadFile settings) before =
        (.ok (loadedFrom settings between.workspace path), after) ∧
      (loadedFrom settings between.workspace path = none →
        ReportsHindrance between.workspace path after)) ∨
    ∃ fault failure after,
      (MachineFile.read path).run between.workspace = (.error fault, between.workspace) ∧
      (Notice.unreadable fault).refusal? = some failure ∧
      Text.beginsTag fault.message.toList = true ∧ Talks between after ∧
      ExceptT.run (loadFile settings) before = (.error (.terminal failure), after) := by
  rcases MachineFile.run_read path none between.workspace with
    ⟨text, found, succeeds⟩ | ⟨nothing, fault, concerns, fails⟩
  · refine .inl ⟨between.telling (report (Source.read text)),
      ⟨rfl, rfl, tells_telling (quick_of_mem_report _) between⟩, fun fault fails => ?_,
      run_loadFile_of_text disarms nested chosen found succeeds, fun none => ?_⟩
    · cases succeeds.symm.trans fails
    · have noRules : (Source.read text).rules = [] := by
        by_contra rules
        simp [loadedFrom, MachineChoice.given?, found, started, rules, loadedAs] at none
      refine ⟨_, .noRules found noRules, ?_⟩
      simp [report, noRules, State.telling]
  · have loading := run_loadFile_of_fault chosen concerns fails
    have talks : Talks between (between.telling (shownOf [.unreadable fault])) := by
      have talks := say_talks (.unreadable fault) (by rintro _ ⟨⟩) between
      rwa [run_say] at talks
    cases refused : (Notice.unreadable fault).refusal? with
    | none =>
        have nothingLoaded : loadedFrom settings between.workspace path = none := by
          rw [loadedFrom, MachineChoice.given?, nothing]
          rfl
        refine .inl ⟨_, talks, fun other again => ?_, ?_, fun _ => ⟨_, .unread fails, ?_⟩⟩
        · cases fails.symm.trans again
          exact refused
        · rw [loading, nothingLoaded, verdict_cons_of_none refused]
          rfl
        · simp [shownOf, refused, State.telling]
    | some failure =>
        have meant : (Notice.unreadable fault).Meant := concerns
        obtain ⟨text, exposed, begins⟩ := exists_beginsTag_of_refused disarms nested meant refused
        rw [List.mem_singleton.mp exposed] at begins
        rw [verdict_cons_of_some refused] at loading
        exact .inr ⟨fault, failure, _, fails, refused, begins, talks, loading⟩

/-- How loading a machine file ends for an answer, once the machine files were listed. -/
inductive ListedLoading (settings : Settings) (paths : List Path) (answer : String)
    (before : State) :
    Except (Breakdown Terminal.Failure) (Option Loaded) → State → Prop where
  /-- The table of the files is refused. -/
  | unlisted {failure : Terminal.Failure} {after : State} (listed : paths ≠ [])
      (refused : (Notice.files paths).refusal? = some failure)
      (begins : ∃ path ∈ paths, Text.beginsTag path.name.toList = true) :
      ListedLoading settings paths answer before (.error (.terminal failure)) after
  /-- The answer is made up of digits that are no number. -/
  | unnumbered {after : State} (shown : FilesShown paths) (digits : Unnumbered answer) :
      ListedLoading settings paths answer before (.error (.fault .unreadableIndex)) after
  /-- The reason why the file cannot be read is refused. -/
  | unreported {path : String} {fault : Fault} {failure : Terminal.Failure} {after : State}
      (shown : FilesShown paths) (usable : ¬Unnumbered answer)
      (chooses : Chooses paths answer path)
      (fails : (MachineFile.read path).run before.workspace = (.error fault, before.workspace))
      (refused : (Notice.unreadable fault).refusal? = some failure)
      (begins : Text.beginsTag fault.message.toList = true) :
      ListedLoading settings paths answer before (.error (.terminal failure)) after
  /-- There is the machine of the file that the answer chooses, or none, for a reason that is
  reported. -/
  | loaded {path : String} {after : State} (shown : FilesShown paths) (usable : ¬Unnumbered answer)
      (chooses : Chooses paths answer path)
      (unrefused : ∀ fault,
        (MachineFile.read path).run before.workspace = (.error fault, before.workspace) →
          (Notice.unreadable fault).refusal? = none)
      (reports : loadedFrom settings before.workspace path = none →
        ReportsHindrance before.workspace path after) :
      ListedLoading settings paths answer before (.ok (loadedFrom settings before.workspace path))
        after

/-- How loading a machine file ends for an answer. -/
structure FileLoading (settings : Settings) (answer : String) (before : State)
    (result : Except (Breakdown Terminal.Failure) (Option Loaded)) (after : State) : Prop where
  unlistable : Unlistable settings before.workspace →
    result = .error (.fault
      (.storage ⟨.nameTooLong, (Path.ofText settings.machinesDirectory).text⟩))
  listed : ¬Unlistable settings before.workspace → ∃ paths,
    MachineFile.Lists settings.machinesDirectory before.workspace paths ∧
      ListedLoading settings paths answer before result after
  talks : Talks before after

end Terminal

end TapeLab.Session
