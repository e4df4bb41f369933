import TapeLab.Proofs.CommandLine
import TapeLab.Proofs.Journal.Keeping
import TapeLab.Proofs.Machine.Vocabulary
import TapeLab.Proofs.Session.Loading
import TapeLab.Proofs.Session.Undelayed
import TapeLab.Proofs.Settings.Checking
import TapeLab.Session.Program

/-!
# Running at once

A command line that asks for a run gets an exit code that agrees with the run
(`runRequest_atOnce`).  It is one if the step cap that was asked for is no cap or the machine
cannot be loaded, and then nothing is written.  Otherwise the machine is run from its start under the
settings, with the cap that was asked for; the exit code tells whether it halted, and the journal
is longer by one line.  One thing can keep the exit code from being told: a machine halts in a state
that the terminal refuses to show (`EndsUnshown`).
-/

namespace TapeLab.Session

open Console Fallible Journal Json Workspace

/-! ### What is asked for -/

/-- The words of a command line ask for a machine and for a run of it. -/
structure AsksToRun (words : List String) (request : Request) (choice : MachineChoice) : Prop where
  read : ∃ options, CommandLine.read parameters words = .ok options ∧
    Request.ofOptions options = .ok request
  machine : request.machine = some choice
  atOnce : request.runAtOnce = true

/-- A command line asks for no bundled machine but those that there are. -/
theorem AsksToRun.offered {words : List String} {request : Request} {choice : MachineChoice}
    (asks : AsksToRun words request choice) : choice.Offered := by
  obtain ⟨options, reads, requested⟩ := asks.read
  have machine : MachineChoice.ofOptions options = some choice := by
    rw [← asks.machine]
    unfold Request.ofOptions at requested
    split at requested
    · cases requested
    · cases requested
      rfl
  unfold MachineChoice.ofOptions at machine
  split at machine
  · cases machine
    trivial
  · next name _ given =>
    cases machine
    obtain ⟨parameter, known, called, admits⟩ :=
      CommandLine.known_of_read reads _ (CommandLine.Options.mem_of_nonemptyText? given)
    have takes : ∀ parameter ∈ CommandLine.help :: parameters, "--example" = parameter.name →
        parameter.takes = .oneOf Examples.names := by decide
    rw [takes parameter known called] at admits
    cases admits with
    | oneOf offered => exact offered
  · cases machine

/-! ### The step cap -/

/-- A step cap was asked for that is no positive number. -/
def InvalidCap (cap : Option CommandLine.Given) : Prop :=
  ∃ given, cap = some given ∧ ∀ number, given = .number number → number ≤ 0

/-- The step cap of a run: the one that was asked for, or that of the settings. -/
def capOf (cap : Option CommandLine.Given) (settings : Settings) : Nat :=
  match cap with
  | some (.number number) => number.toNat
  | _ => settings.maxSteps

/-- Settings that differ from others in the step cap alone, which is the one of a run. -/
structure Capped (cap : Option CommandLine.Given) (settings effective : Settings) : Prop where
  maxSteps : effective.maxSteps = capOf cap settings
  others : ∀ name, name ≠ "max_steps" →
    Settings.named? effective.entries name = Settings.named? settings.entries name

namespace Capped

variable {cap : Option CommandLine.Given} {settings effective : Settings}

theorem switch (capped : Capped cap settings effective) {name : String}
    (other : name ≠ "max_steps") :
    Settings.switch effective.entries name = Settings.switch settings.entries name := by
  rw [Settings.switch, Settings.switch, capped.others name other]

theorem word (capped : Capped cap settings effective) {name : String}
    (other : name ≠ "max_steps") :
    Settings.word effective.entries name = Settings.word settings.entries name := by
  rw [Settings.word, Settings.word, capped.others name other]

end Capped

/-- A step cap is refused if it is invalid, and changes nothing but the step cap otherwise. -/
theorem withCap_cases (cap : Option CommandLine.Given) (settings : Settings) :
    (InvalidCap cap ∧ ∃ fault, withCap cap settings = .error fault) ∨
    (¬InvalidCap cap ∧ ∃ effective, withCap cap settings = .ok effective ∧
      Capped cap settings effective) := by
  cases cap with
  | none =>
      refine Or.inr ⟨?_, settings, rfl, rfl, fun _ _ => rfl⟩
      rintro ⟨given, ⟨⟩, -⟩
  | some given =>
      have override : withCap (some given) settings = Settings.ofEntries
          (Keyed.put (.text "max_steps") (capValue given) settings.entries) := rfl
      have check := Settings.check_put_maxSteps settings.accepted (capValue given)
      rw [override]
      cases ended : Settings.check
          (Keyed.put (.text "max_steps") (capValue given) settings.entries) with
      | error fault =>
          rw [Settings.ofEntries_eq_error ended]
          refine Or.inl ⟨⟨given, rfl, ?_⟩, fault, rfl⟩
          rintro number rfl
          rw [ended] at check
          by_contra positive
          exact absurd (check.mpr ⟨rfl, Int.not_le.mp positive⟩) nofun
      | ok passed =>
          obtain ⟨passes, positive⟩ := check.mp ended
          rw [Settings.ofEntries_eq_ok ended]
          cases given with
          | nothing => cases passes
          | text text => cases passes
          | number number =>
              refine Or.inr ⟨?_, _, rfl, ?_, ?_⟩
              · rintro ⟨given, ⟨⟩, invalid⟩
                exact absurd (invalid number rfl) (Int.not_le.mpr positive)
              · simp [Settings.maxSteps, Settings.wholeNumber, Settings.named?_put, capOf,
                  capValue, Value.wholeNumber?]
              · intro name other
                simp only [Settings.named?_put, if_neg (Ne.symm other)]

/-! ### The run and its entry -/

/-- Where the run of a machine ends. -/
def endOf (cap : Option CommandLine.Given) (settings : Settings) (definition : Definition) :
    Config :=
  definition.initial.run (Table.ofDefinition definition) settings.writeBlank (capOf cap settings)

/-- It ends in the state in which the machine starts, or in one that a rule leads to. -/
theorem state_endOf (cap : Option CommandLine.Given) (settings : Settings)
    (definition : Definition) :
    (endOf cap settings definition).state = definition.start ∨
      ∃ rule ∈ definition.rules, rule.next = (endOf cap settings definition).state := by
  rw [endOf, Config.run_eq_stage]
  exact (Config.madeOf_stage definition.rules definition.blank _ definition.initial _).state

/-- The machine at the end of that run. -/
def finalOf (cap : Option CommandLine.Given) (settings : Settings) (definition : Definition) :
    Simulation :=
  { Simulation.atStart definition settings.writeBlank settings.keepHistory with
    config := endOf cap settings definition }

/-- The record of that run. -/
def recordOf (cap : Option CommandLine.Given) (settings : Settings) (moment : Moment)
    (name : String) (definition : Definition) : RunRecord :=
  RunRecord.ofRun name definition (endOf cap settings definition) moment

/-- Begin the journal of a session and enter a record. -/
def enter (settings : Settings) (moment : Moment) (record : RunRecord) : Storage Unit := do
  let journal ← Journal.begin? settings.outputDirectory settings.journalPrefix moment
  journal.log record.value

/-- The journal of a session. -/
def journalOf (settings : Settings) (moment : Moment) : Journal :=
  ⟨settings.outputDirectory, settings.journalPrefix, moment.date⟩

/-- Where a journal is kept has nothing to do with the step cap. -/
theorem Capped.enter_eq {cap : Option CommandLine.Given} {settings effective : Settings}
    (capped : Capped cap settings effective) (moment : Moment) (record : RunRecord) :
    enter effective moment record = enter settings moment record := by
  have directory : effective.outputDirectory = settings.outputDirectory :=
    capped.word (by decide)
  have label : effective.journalPrefix = settings.journalPrefix := capped.word (by decide)
  rw [enter, enter, directory, label]

/-- Entering a record is beginning a journal and logging the record in it. -/
theorem run_enter {settings : Settings} {moment : Moment} {record : RunRecord}
    {workspace : Workspace}
    (succeeds : ((enter settings moment record).run workspace).1 = .ok ()) :
    ∃ made, (Journal.begin? settings.outputDirectory settings.journalPrefix moment).run workspace =
        (.ok (journalOf settings moment), made) ∧
      ChangesOnly [] workspace made ∧
      ((addAll (journalOf settings moment).mainFile [record.value]).run made).1 = .ok () ∧
      ((enter settings moment record).run workspace).2 =
        ((addAll (journalOf settings moment).mainFile [record.value]).run made).2 := by
  obtain ⟨journal, made, begins, later⟩ := exists_of_bind_ok succeeds
  obtain ⟨rfl, changes⟩ := run_begin begins
  rw [show (enter settings moment record).run workspace = _ from later] at succeeds ⊢
  exact ⟨made, begins, changes, succeeds, rfl⟩

/-- A record that is entered is one line more in the main file, and changes no other file. -/
theorem bytesIn_enter {settings : Settings} {moment : Moment} {record : RunRecord}
    {workspace : Workspace}
    (succeeds : ((enter settings moment record).run workspace).1 = .ok ()) :
    bytesIn (journalOf settings moment).mainFile ((enter settings moment record).run workspace).2 =
        bytesIn (journalOf settings moment).mainFile workspace ++ Text.encode (line record.value) ∧
      ChangesOnly [(journalOf settings moment).mainFile] workspace
        ((enter settings moment record).run workspace).2 := by
  obtain ⟨made, -, changes, adds, ended⟩ := run_enter succeeds
  have still : made.held? (journalOf settings moment).mainFile =
      workspace.held? (journalOf settings moment).mainFile :=
    changes.held?_eq fun _ member => absurd member List.not_mem_nil
  have only := addAll_changesOnly (journalOf settings moment).mainFile [record.value] made
  rw [ended]
  refine ⟨?_, ?_⟩
  · rw [bytesIn, held?_of_addAll adds, bytesIn, still]
    simp [String.join]
  · exact (changes.mono (List.nil_subset _)).trans only

/-! ### The exit code -/

/-- A machine was run under a step cap: the exit code tells how its run ended, and its record is
one line more in the main file of the journal.  No other file has changed, nobody had to wait, and
the settings of the session are what they were.  Those under which the machine was run are others,
and differ from them in the step cap alone. -/
structure RanAtOnce (cap : Option CommandLine.Given) (moment : Moment) (name : String)
    (definition : Definition) (before : State) (code : Nat) (after : State) : Prop where
  code : code = if (endOf cap before.settings definition).status = .halted then 0 else 2
  entered : bytesIn (journalOf before.settings moment).mainFile after.workspace =
    bytesIn (journalOf before.settings moment).mainFile before.workspace ++
      Text.encode (line (recordOf cap before.settings moment name definition).value)
  oneLine : Text.Unbroken
    (recordOf cap before.settings moment name definition).value.compact.toList
  elsewhere : ChangesOnly [(journalOf before.settings moment).mainFile] before.workspace
    after.workspace
  unpaused : Unpaused before after
  settings : after.settings = before.settings
  capped : ∃ effective, withCap cap before.settings = .ok effective ∧
    Capped cap before.settings effective

/-- What holds once the record of a run was entered, if nothing else was done but talking. -/
theorem RanAtOnce.of_entered {cap : Option CommandLine.Given} {moment : Moment} {name : String}
    {definition : Definition} {before after : State} {effective : Settings}
    (accepted : withCap cap before.settings = .ok effective)
    (capped : Capped cap before.settings effective)
    (enters : ((enter before.settings moment
      (recordOf cap before.settings moment name definition)).run before.workspace).1 = .ok ())
    (ended : after.workspace = ((enter before.settings moment
      (recordOf cap before.settings moment name definition)).run before.workspace).2)
    (unpaused : Unpaused before after) (settings : after.settings = before.settings) :
    RanAtOnce cap moment name definition before
      (exitCode (finalOf cap before.settings definition)) after where
  code := by simp only [exitCode, Simulation.halted, finalOf, beq_iff_eq]
  entered := ended ▸ (bytesIn_enter enters).1
  oneLine := unbroken_compact _
  elsewhere := ended ▸ (bytesIn_enter enters).2
  unpaused
  settings
  capped := ⟨effective, accepted, capped⟩

/-- What an exit code tells of a command line that asked for a run.  It is one exactly if the step
cap that was asked for is no cap or the machine cannot be loaded, and then nothing was written.
Otherwise the machine was run. -/
structure ExitTells (request : Request) (choice : MachineChoice) (moment : Moment)
    (before : State) (code : Nat) (after : State) : Prop where
  refused : code = 1 ↔ InvalidCap request.cap ∨ choice.Unusable before.workspace
  quiet : code = 1 → Talks before after
  ran : code ≠ 1 → ∃ definition, choice.given? before.workspace = some definition ∧
    RanAtOnce request.cap moment choice.name definition before code after

section Exit

variable {request : Request} {choice : MachineChoice} {moment : Moment} {before after : State}

/-- What is refused has the exit code one. -/
theorem exitTells_of_refused (talks : Talks before after)
    (because : InvalidCap request.cap ∨ choice.Unusable before.workspace) :
    ExitTells request choice moment before 1 after where
  refused := ⟨fun _ => because, fun _ => rfl⟩
  quiet := fun _ => talks
  ran := fun other => absurd rfl other

/-- What was run has another one. -/
theorem RanAtOnce.exitTells {definition : Definition} {code : Nat}
    (ran : RanAtOnce request.cap moment choice.name definition before code after)
    (given : choice.given? before.workspace = some definition)
    (valid : ¬InvalidCap request.cap) (rules : definition.rules ≠ []) :
    ExitTells request choice moment before code after := by
  have other : code ≠ 1 := by
    rw [ran.code]
    split <;> decide
  refine ⟨⟨fun one => absurd one other, ?_⟩, fun one => absurd one other,
    fun _ => ⟨definition, given, ran⟩⟩
  rintro (invalid | unusable)
  · exact absurd invalid valid
  · exact absurd (unusable definition given) rules

end Exit

/-! ### What is shown at the end -/

/-- Nobody has to wait at the end of a run. -/
theorem quick_of_mem_closing (settings : Settings) (interrupted : Bool) (taken : Nat)
    (simulation : Simulation) : ∀ notice ∈ closing settings interrupted taken simulation,
      notice.Quick :=
  forall_mem_closing nofun nofun nofun fun _ => nofun

section Terminal

variable [Terminal]

/-- How a halted machine is shown depends on its machine and its configuration alone. -/
theorem refusal?_halted_congr {first second : Simulation}
    (sameDefinition : first.definition = second.definition) (sameConfig : first.config = second.config) :
    (Notice.halted first).refusal? = (Notice.halted second).refusal? := by
  simp only [Notice.refusal?, Notice.event, Simulation.tapeText, sameDefinition, sameConfig]

/-- What is said at the end of a run that was not interrupted. -/
def farewell (final : Simulation) : List Notice :=
  if final.halted then [.halted final] else []

/-- At the end of such a run all is shown but perhaps the state of a machine that halted. -/
theorem verdict_closing (disarms : Terminal.Disarms) (nested : Terminal.ShowsNested)
    (settings : Settings) (taken : Nat) {simulation final : Simulation}
    (sameDefinition : simulation.definition = final.definition)
    (sameConfig : simulation.config = final.config) :
    verdict (closing settings false taken simulation) = verdict (farewell final) := by
  have pictured : (Notice.picture settings simulation).refusal? = none :=
    refusal?_eq_none disarms nested trivial nofun
  have cut : (Notice.cutOff taken).refusal? = none :=
    refusal?_eq_none disarms nested trivial nofun
  have closes : closing settings false taken simulation =
      .picture settings simulation :: (ending settings taken simulation).toList := rfl
  have same : final.halted = simulation.halted := by
    rw [Simulation.halted, Simulation.halted, sameConfig]
  rw [closes, verdict_cons_of_none pictured, ending, farewell, same]
  cases halted : simulation.halted with
  | true =>
      have status : simulation.config.status = .halted := by
        simpa [Simulation.halted] using halted
      simp [status, verdict, refusal?_halted_congr sameDefinition sameConfig]
  | false =>
      split
      · exact verdict_cons_of_none cut []
      · rfl

/-- If a record can be entered in the journal of a session, the journal is begun, and the record is
logged after whatever was told since then. -/
theorem run_journal {settings : Settings} {moment : Moment} {record : RunRecord} {state : State}
    (succeeds : ((enter settings moment record).run state.workspace).1 = .ok ()) :
    ∃ made, ChangesOnly [] state.workspace made ∧
      ExceptT.run (onWorkspace
        (Journal.begin? settings.outputDirectory settings.journalPrefix moment)) state =
          (.ok (journalOf settings moment), { state with workspace := made }) ∧
      ∀ told : State, told.workspace = made →
        ExceptT.run (onWorkspace ((journalOf settings moment).log record.value)) told =
          (.ok (), { told with
            workspace := ((enter settings moment record).run state.workspace).2 : State }) := by
  obtain ⟨made, begins, changes, adds, ended⟩ := run_enter succeeds
  refine ⟨made, changes, ?_, ?_⟩
  · rw [run_onWorkspace, begins]
    rfl
  · rintro told rfl
    rw [run_onWorkspace, ended]
    exact Prod.ext (congrArg (Except.mapError Breakdown.fault) adds) rfl

/-- A run at once begins the journal, runs the machine and says how the run ended.  If that is
shown, the record is entered in the journal, and the exit code tells of the run. -/
theorem run_runAtOnce (disarms : Terminal.Disarms) (nested : Terminal.ShowsNested)
    {settings : Settings} {moment : Moment} (loaded : Loaded) {state : State} (final : Simulation)
    (machine : final.definition = loaded.simulation.definition)
    (ends : final.config = loaded.simulation.config.run loaded.simulation.table
      loaded.simulation.writeBlank settings.maxSteps) {record : RunRecord}
    (recorded : record = .ofRun loaded.name final.definition final.config moment)
    (succeeds : ((enter settings moment record).run state.workspace).1 = .ok ()) :
    ∃ made told, ChangesOnly [] state.workspace made ∧ (∀ notice ∈ told, notice.Quick) ∧
      ExceptT.run (runAtOnce moment settings loaded) state =
        match verdict (farewell final) with
        | .error breakdown => (.error breakdown, { state.telling told with workspace := made })
        | .ok () => (.ok (exitCode final), { state.telling told with
            workspace := ((enter settings moment record).run state.workspace).2 }) := by
  obtain ⟨made, changes, begun, logged⟩ := run_journal succeeds
  have runs := run_runMachine settings (journalOf settings moment) moment loaded.name
    loaded.simulation { state with workspace := made }
  obtain ⟨definition, config⟩ := ticking_none settings loaded.simulation
    { state with workspace := made }
  generalize ticking settings none loaded.simulation { state with workspace := made } = run
    at runs definition config
  have same : run.simulation.definition = final.definition ∧ run.simulation.config = final.config :=
    ⟨definition.trans machine.symm, config.trans ends.symm⟩
  have shown : verdict (closing settings false run.taken run.simulation) =
      verdict (farewell final) := verdict_closing disarms nested settings run.taken same.1 same.2
  refine ⟨made, shownOf (closing settings false run.taken run.simulation), changes,
    fun notice member => quick_of_mem_closing _ _ _ _ notice (shownOf_subset _ member), ?_⟩
  dsimp only at runs
  rw [same.1, same.2, ← recorded, run_bind, run_forM_say, shown] at runs
  rw [runAtOnce, run_bind_ok begun, run_bind, runs]
  cases verdict (farewell final) with
  | error breakdown => rfl
  | ok done =>
      simp only
      rw [run_bind_ok (logged _ rfl)]
      simp only [run_pure, exitCode, Simulation.halted, same.2]
      rfl

/-! ### The end of a run at once -/

/-- A machine that is run at once halts, and the terminal refuses to show how. -/
structure EndsUnshown (request : Request) (choice : MachineChoice) (before : State)
    (definition : Definition) (failure : Terminal.Failure) : Prop where
  valid : ¬InvalidCap request.cap
  given : choice.given? before.workspace = some definition
  rules : definition.rules ≠ []
  halts : (endOf request.cap before.settings definition).status = .halted
  refused : (Notice.halted (finalOf request.cap before.settings definition)).refusal? = some failure

/-- How a command line that asked for a run ends. -/
structure EndsAtOnce (request : Request) (choice : MachineChoice) (moment : Moment)
    (before : State) (result : Except (Breakdown Terminal.Failure) Nat) (after : State) : Prop where
  /-- There is an exit code, unless the end of the run cannot be shown. -/
  told : (∀ definition failure, ¬EndsUnshown request choice before definition failure) →
    ∃ code, result = .ok code ∧ ExitTells request choice moment before code after
  /-- A run whose end cannot be shown has no exit code and is entered nowhere.  A tag begins in the
  state in which it halts. -/
  untold : ∀ definition failure, EndsUnshown request choice before definition failure →
    result = .error (.terminal failure) ∧
    Text.beginsTag (endOf request.cap before.settings definition).state.toList = true ∧
    ChangesOnly [] before.workspace after.workspace ∧ Unpaused before after ∧
    after.settings = before.settings

section Exit

variable {request : Request} {choice : MachineChoice} {moment : Moment} {before after : State}

/-- What is refused does not end unshown. -/
theorem EndsUnshown.not_refused {definition : Definition} {failure : Terminal.Failure}
    (unshown : EndsUnshown request choice before definition failure) :
    ¬(InvalidCap request.cap ∨ choice.Unusable before.workspace) := by
  rintro (invalid | unusable)
  · exact unshown.valid invalid
  · exact unshown.rules (unusable definition unshown.given)

theorem endsAtOnce_of_refused (talks : Talks before after)
    (because : InvalidCap request.cap ∨ choice.Unusable before.workspace) :
    EndsAtOnce request choice moment before (.ok 1) after where
  told := fun _ => ⟨1, rfl, exitTells_of_refused talks because⟩
  untold := fun _ _ unshown => absurd because unshown.not_refused

/-- No tag begins in the name of a state of a machine. -/
def NamesNoTag (definition : Definition) : Prop :=
  Text.beginsTag definition.start.toList = false ∧
    ∀ rule ∈ definition.rules, Text.beginsTag rule.next.toList = false

/-- A machine whose states have such names gets its exit code. -/
theorem EndsAtOnce.exists_code {result : Except (Breakdown Terminal.Failure) Nat}
    (ends : EndsAtOnce request choice moment before result after)
    (plain : ∀ definition, choice.given? before.workspace = some definition →
      NamesNoTag definition) :
    ∃ code, result = .ok code ∧ ExitTells request choice moment before code after := by
  refine ends.told fun definition failure unshown => ?_
  obtain ⟨-, begins, -⟩ := ends.untold definition failure unshown
  obtain ⟨start, next⟩ := plain definition unshown.given
  rcases state_endOf request.cap before.settings definition with begun | ⟨rule, member, leads⟩
  · rw [begun, start] at begins
    cases begins
  · rw [← leads, next rule member] at begins
    cases begins

/-- What is said at the end of a run is shown, unless the machine halted and how it did is
refused. -/
theorem verdict_farewell_cases (final : Simulation) :
    (verdict (farewell final) = .ok () ∧
      ∀ failure, ¬(final.halted = true ∧ (Notice.halted final).refusal? = some failure)) ∨
    ∃ failure, verdict (farewell final) = .error (.terminal failure) ∧ final.halted = true ∧
      (Notice.halted final).refusal? = some failure := by
  unfold farewell
  cases halted : final.halted with
  | false => exact .inl ⟨rfl, fun _ => nofun⟩
  | true =>
      cases refused : (Notice.halted final).refusal? with
      | none =>
          refine .inl ⟨?_, fun _ both => absurd both.2 nofun⟩
          rw [if_pos rfl, verdict_cons_of_none refused]
          rfl
      | some failure =>
          refine .inr ⟨failure, ?_, rfl, rfl⟩
          rw [if_pos rfl, verdict_cons_of_some refused]

/-- Nothing is refused of a machine that halted but the state in which it did. -/
theorem beginsTag_of_refused (disarms : Terminal.Disarms) (nested : Terminal.ShowsNested)
    {final : Simulation} (halted : final.halted = true) {failure : Terminal.Failure}
    (refused : (Notice.halted final).refusal? = some failure) :
    Text.beginsTag final.config.state.toList = true := by
  have meant : (Notice.halted final).Meant := halted
  obtain ⟨text, member, begins⟩ := exists_beginsTag_of_refused disarms nested meant refused
  rwa [List.mem_singleton.mp member] at begins

/-- A machine that was put on the bench under settings of a step cap is run with that cap. -/
theorem runAtOnce_ends (disarms : Terminal.Disarms) (nested : Terminal.ShowsNested)
    {effective : Settings} (accepted : withCap request.cap before.settings = .ok effective)
    (capped : Capped request.cap before.settings effective) (valid : ¬InvalidCap request.cap)
    {definition : Definition} (given : choice.given? before.workspace = some definition)
    (rules : definition.rules ≠ []) {shown : State} (talks : Talks before shown)
    (enters : ((enter before.settings moment
      (recordOf request.cap before.settings moment choice.name definition)).run
        before.workspace).1 = .ok ()) :
    ∃ result after, ExceptT.run (runAtOnce moment effective
        { simulation := .atStart definition effective.writeBlank effective.keepHistory
          name := choice.name }) shown = (result, after) ∧
      EndsAtOnce request choice moment before result after := by
  have writeBlank : effective.writeBlank = before.settings.writeBlank := capped.switch (by decide)
  have ends : (finalOf request.cap before.settings definition).config =
      definition.initial.run (Table.ofDefinition definition) effective.writeBlank
        effective.maxSteps := by
    rw [capped.maxSteps, writeBlank]
    rfl
  rw [← talks.workspace, ← capped.enter_eq] at enters
  obtain ⟨made, told, changes, quick, runs⟩ := run_runAtOnce disarms nested
    ⟨.atStart definition effective.writeBlank effective.keepHistory, choice.name⟩
    (finalOf request.cap before.settings definition) rfl ends rfl enters
  rw [capped.enter_eq, talks.workspace] at runs enters
  rw [talks.workspace] at changes
  have unpaused : Unpaused before (shown.telling told) :=
    trans_of Unpaused talks.unpaused (tells_telling quick shown)
  have halts : (finalOf request.cap before.settings definition).halted = true ↔
      (endOf request.cap before.settings definition).status = .halted := beq_iff_eq
  rcases verdict_farewell_cases (finalOf request.cap before.settings definition) with
    ⟨shows, unrefused⟩ | ⟨failure, fails, halted, refused⟩
  · rw [shows] at runs
    refine ⟨_, _, runs, ?_, ?_⟩
    · have ran : RanAtOnce request.cap moment choice.name definition before
          (exitCode (finalOf request.cap before.settings definition))
          { shown.telling told with workspace := _ } :=
        .of_entered accepted capped enters rfl unpaused talks.settings
      exact fun _ => ⟨_, rfl, ran.exitTells given valid rules⟩
    · intro other failure unshown
      obtain rfl : definition = other := Option.some.inj (given.symm.trans unshown.given)
      exact absurd ⟨halts.mpr unshown.halts, unshown.refused⟩ (unrefused failure)
  · rw [fails] at runs
    refine ⟨_, _, runs, ?_, ?_⟩
    · intro shown
      exact absurd ⟨valid, given, rules, halts.mp halted, refused⟩ (shown definition failure)
    · intro other second unshown
      obtain rfl : definition = other := Option.some.inj (given.symm.trans unshown.given)
      obtain rfl : failure = second := Option.some.inj (refused.symm.trans unshown.refused)
      exact ⟨rfl, beginsTag_of_refused disarms nested halted refused, changes, unpaused,
        talks.settings⟩

/-- A machine that can be loaded is put on the bench and run, if its record can be entered in the
journal. -/
theorem runRequest_usable (disarms : Terminal.Disarms) (nested : Terminal.ShowsNested)
    {words : List String} (asks : AsksToRun words request choice) (valid : ¬InvalidCap request.cap)
    {definition : Definition} (given : choice.given? before.workspace = some definition)
    (rules : definition.rules ≠ [])
    (enters : ((enter before.settings moment
      (recordOf request.cap before.settings moment choice.name definition)).run
        before.workspace).1 = .ok ()) :
    ∃ result after, ExceptT.run (runRequest request moment choice) before = (result, after) ∧
      EndsAtOnce request choice moment before result after := by
  rcases withCap_cases request.cap before.settings with
    ⟨invalid, -⟩ | ⟨-, effective, accepted, capped⟩
  · exact absurd invalid valid
  rcases run_attempt_definition asks.offered before with
    ⟨other, found, attempted⟩ | ⟨nothing, -⟩
  · obtain rfl : definition = other := Option.some.inj (given.symm.trans found)
    have put := run_putOnBench_shown disarms nested effective definition before
    have talks : Talks before (before.telling (report definition)) :=
      ⟨rfl, rfl, tells_telling (quick_of_mem_report definition) before⟩
    rw [runRequest, run_bind_ok (run_get before), accepted]
    simp only [run_bind_ok attempted, run_bind_ok put, started, if_neg rules, loadedAs,
      Option.map_some, asks.atOnce, if_true]
    exact runAtOnce_ends disarms nested accepted capped valid given rules talks enters
  · rw [given] at nothing
    cases nothing

/-- What cannot be run is refused, and what is said of that is shown. -/
theorem runRequest_refused (disarms : Terminal.Disarms) (nested : Terminal.ShowsNested)
    {words : List String} (asks : AsksToRun words request choice)
    (because : InvalidCap request.cap ∨ choice.Unusable before.workspace) :
    ∃ after, ExceptT.run (runRequest request moment choice) before = (.ok 1, after) ∧
      Talks before after := by
  have refuses : ∀ fault, ∃ after, ExceptT.run (do
      say (.refused fault)
      return 1 : Session Nat) before = (.ok 1, after) ∧ Talks before after := by
    intro fault
    have shows : (Notice.refused fault).refusal? = none :=
      refusal?_eq_none disarms nested trivial nofun
    have talks := say_talks (.refused fault) nofun before
    rw [run_say_of_none shows] at talks
    rw [run_bind_ok (run_say_of_none shows before)]
    exact ⟨_, rfl, talks⟩
  rw [runRequest, run_bind_ok (run_get before)]
  rcases withCap_cases request.cap before.settings with
    ⟨-, fault, fails⟩ | ⟨valid, effective, accepted, -⟩
  · rw [fails]
    exact refuses _
  rw [accepted]
  have unusable : choice.Unusable before.workspace := because.resolve_left valid
  rcases run_attempt_definition asks.offered before with
    ⟨definition, given, attempted⟩ | ⟨-, fault, attempted⟩
  · have put := run_putOnBench_shown disarms nested effective definition before
    simp only [run_bind_ok attempted, run_bind_ok put, started, if_pos (unusable definition given)]
    exact ⟨_, rfl, rfl, rfl, tells_telling (quick_of_mem_report definition) before⟩
  · rw [run_bind_ok attempted]
    exact refuses _

end Exit

end Terminal

/-- A request for three steps of a bundled machine. -/
def threeSteps : Request where
  machine := some (.bundled "binary-increment")
  runAtOnce := true
  cap := some (.number 3)

/-- A machine whose only step halts it in a state that is written as a closing tag. -/
def closesTag : Definition where
  dialect := .classic
  rules := [⟨"q0", "0", "[/x]", "0", .stay, false, some 2⟩]
  tape := ["0"]
  start := "q0"

/-- A request for a run of a machine file. -/
def runsFile : Request where
  machine := some (.file "m.tm")
  runAtOnce := true

/-- A workspace with that machine in a file. -/
def closesTagWorkspace : Workspace where
  entries := [(["work", "m.tm"],
    .file (Text.encode "Initial tape: 0\nq0, 0 -> [/x], 0, N\n"))]

/-- The configuration in which that machine halts. -/
def closesTagEnd : Config where
  state := "[/x]"
  tape := #["0"]
  head := 0
  steps := 1
  status := .halted

theorem endOf_closesTag : endOf none .defaults closesTag = closesTagEnd := by
  have cap : capOf none .defaults = 9999 + 1 := by decide +kernel
  have found : (Table.ofDefinition closesTag).lookup "q0" "0" =
      some ⟨"q0", "0", "[/x]", "0", .stay, false, some 2⟩ := by
    rw [Table.ofDefinition, Table.lookup_ofRules]
    decide
  have once : closesTag.initial.step (Table.ofDefinition closesTag) Settings.defaults.writeBlank =
      closesTagEnd := by
    have scanned : closesTag.initial.scanned (Table.ofDefinition closesTag) = "0" := rfl
    have held : Settings.defaults.writeBlank = false := by decide +kernel
    rw [Config.step, scanned, held]
    simp only [show closesTag.initial.status = .running from rfl,
      show closesTag.initial.state = "q0" from rfl, found]
    rfl
  rw [endOf, cap, Config.run_succ rfl, once, Config.run_of_finished rfl]

end TapeLab.Session
