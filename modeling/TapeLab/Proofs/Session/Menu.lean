import TapeLab.Proofs.Session.ChoosingFile
import TapeLab.Proofs.Session.InStep

/-!
# Rounds of the menu

A session begins with a fresh bench, and its rounds lead to every bench with which the menu is
shown (`ShowsMenu.exists_rounds`).  Whenever that is, the machine on the bench is in step with the
settings, and a round in which a machine cannot be loaded or an edit is refused leaves the bench
and the workspace as they were (`steady_of_showsMenu`).
-/

namespace TapeLab.Session

open Console Fallible

section Terminal

variable [Terminal]

/-! ### When the menu is shown -/

/-- The menu is shown with a bench, in a state: at first, and after each round that does not end
the session. -/
inductive ShowsMenu (surroundings : Surroundings) (first : Bench) (begun : State) :
    Bench → State → Prop where
  | first : ShowsMenu surroundings first begun first begun
  | next {bench next : Bench} {before after : State}
      (shown : ShowsMenu surroundings first begun bench before)
      (goesOn : ExceptT.run (round surroundings bench) before = (.ok (some next), after)) :
      ShowsMenu surroundings first begun next after

variable {surroundings : Surroundings} {first bench : Bench} {begun state : State}

/-- The rounds of a session lead to every bench with which the menu is shown. -/
theorem ShowsMenu.exists_rounds (shown : ShowsMenu surroundings first begun bench state) :
    ∃ count, ∀ fuel, ExceptT.run (rounds surroundings (count + fuel) first) begun =
      ExceptT.run (rounds surroundings fuel bench) state := by
  induction shown with
  | first => exact ⟨0, fun fuel => by rw [Nat.zero_add]⟩
  | next shown goesOn inductionHypothesis =>
      obtain ⟨count, leads⟩ := inductionHypothesis
      refine ⟨count + 1, fun fuel => ?_⟩
      rw [Nat.add_assoc, Nat.add_comm 1 fuel, leads (fuel + 1), rounds, run_bind_ok goesOn]

/-- Whenever the menu is shown, the bench is in step. -/
theorem ShowsMenu.inStep (shown : ShowsMenu surroundings first begun bench state)
    (fresh : first.Fresh) : bench.InStep := by
  induction shown with
  | first => exact fresh.inStep
  | @next bench next before after shown goesOn inductionHypothesis =>
      have kept : Yields (fun left : Option Bench => ∀ next, left = some next → next.InStep)
          (round surroundings bench) := by
        refine .after fun _ => .after fun item => ?_
        split
        · exact .after fun _ => .pure nofun
        · refine (perform_inStep inductionHypothesis surroundings item).bind fun _ inStep =>
            .pure ?_
          rintro _ ⟨⟩
          exact inStep
      exact kept before (some next) (congrArg Prod.fst goesOn) next rfl

/-! ### What is chosen -/

/-- The menu is shown and an item chosen. -/
def chooseItem (bench : Bench) : Session MenuItem := do
  showMenu bench
  ask menuQuestion

/-- How a machine is chosen, by an item that loads one. -/
def chooseMachine (settings : Settings) : MenuItem → Option (Session MachineChoice)
  | .loadFile => some (do return .file (← choosePath settings))
  | .loadExample => some (do return .bundled (← ask exampleQuestion))
  | _ => none

/-- New settings are asked for. -/
def askEdit (settings : Settings) : Session Settings.Entries := do
  say .editing
  askSettings settings

theorem showMenu_talks (bench : Bench) : Relates Talks (showMenu bench) := by
  refine forM_say_talks fun notice member => ?_
  rcases List.mem_cons.mp member with rfl | offered
  · nofun
  · obtain ⟨item, -, rfl⟩ := List.mem_map.mp offered
    nofun

theorem chooseItem_talks (bench : Bench) : Relates Talks (chooseItem bench) :=
  (showMenu_talks bench).bind fun _ => ask_talks _

theorem askEdit_talks (settings : Settings) : Relates Talks (askEdit settings) :=
  (say_talks .editing nofun).bind fun _ => (ask_talks _).bind fun _ => (ask_talks _).bind fun _ =>
    (ask_talks _).bind fun _ => (ask_talks _).bind fun _ => (ask_talks _).bind fun _ =>
      (ask_talks _).bind fun _ => Relates.pure _

/-! ### What is refused -/

/-- An operation does nothing but talk, and comes to a value, unless the terminal refuses to show
something. -/
def ComesTo {α : Type} (operation : Session α) (state : State) (value : α) : Prop :=
  ∃ after, Talks state after ∧
    (ExceptT.run operation state = (.ok value, after) ∨
      ∃ failure, ExceptT.run operation state = (.error (.terminal failure), after))

section ComesTo

variable {α β : Type} {first : Session α} {next : α → Session β} {given : α} {value : β}

theorem comesTo_pure (state : State) (given : α) : ComesTo (pure given) state given :=
  ⟨state, refl_of Talks state, .inl rfl⟩

/-- After an operation that is known to have succeeded, the rest counts. -/
theorem comesTo_of_run {between : State} (ran : ExceptT.run first state = (.ok given, between))
    (talks : Talks state between) (goesOn : ComesTo (next given) between value) :
    ComesTo (first >>= next) state value := by
  obtain ⟨after, further, ended⟩ := goesOn
  refine ⟨after, trans_of Talks talks further, ?_⟩
  rwa [run_bind_ok ran]

theorem ComesTo.bind (begins : ComesTo first state given)
    (goesOn : ∀ between, Talks state between → ComesTo (next given) between value) :
    ComesTo (first >>= next) state value := by
  obtain ⟨between, talks, ran | ⟨failure, fails⟩⟩ := begins
  · exact comesTo_of_run ran talks (goesOn between talks)
  · exact ⟨between, talks, .inr ⟨failure, run_bind_error fails⟩⟩

/-- So does what is known once some notices were said. -/
theorem comesTo_of_verdict {notices : List Notice} (quick : ∀ notice ∈ notices, notice.Quick)
    (ended : ExceptT.run first state =
      ((verdict notices).map fun _ => given, state.telling (shownOf notices))) :
    ComesTo first state given := by
  refine ⟨state.telling (shownOf notices), ⟨rfl, rfl, tells_telling
    (fun notice member => quick notice (shownOf_subset notices member)) state⟩, ?_⟩
  rcases verdict_cases notices with shows | ⟨failure, fails⟩
  · rw [ended, shows]
    exact .inl rfl
  · rw [ended, fails]
    exact .inr ⟨failure, rfl⟩

theorem say_comesTo (notice : Notice) (quick : notice.Quick) (state : State) :
    ComesTo (say notice) state () := by
  refine comesTo_of_verdict (List.forall_mem_singleton.mpr quick) ?_
  rw [run_say]
  cases verdict [notice] <;> rfl

end ComesTo

/-- Nothing is put on the bench of a machine without rules. -/
theorem putOnBench_noRules (settings : Settings) {definition : Definition}
    (noRules : definition.rules = []) (state : State) :
    ComesTo (putOnBench settings definition) state none := by
  have put := run_putOnBench settings definition state
  rw [started, if_pos noRules] at put
  exact comesTo_of_verdict (quick_of_mem_report definition) put

/-- A file of which no machine can be loaded puts nothing on the bench. -/
theorem loadFile_unusable {settings : Settings} {path : String} {between : State}
    (chosen : ExceptT.run (choosePath settings) state = (.ok path, between))
    (unusable : (MachineChoice.file path).Unusable between.workspace) :
    ComesTo (loadFile settings) state none := by
  have talks := choosePath_talks settings state
  rw [chosen] at talks
  rw [loadFile_eq]
  refine comesTo_of_run chosen talks ?_
  rcases @run_attempt_definition _ (.file path) trivial between with
    ⟨definition, given, attempted⟩ | ⟨-, fault, attempted⟩
  · refine comesTo_of_run attempted (refl_of Talks between) ?_
    exact (putOnBench_noRules settings (unusable definition given) between).bind
      fun later _ => comesTo_pure later none
  · refine comesTo_of_run attempted (refl_of Talks between) ?_
    exact (say_comesTo (.unreadable fault) nofun between).bind fun later _ => comesTo_pure later none

/-- An answer that is used is one that the question can read. -/
theorem ask_yields {α : Type} {property : α → Prop} {question : Question α}
    (reads : ∀ answer meaning, question.read answer = .ok meaning → property meaning) :
    Yields property (ask question) := by
  have used : ∀ answers meaning rest, (question.ask answers).2 = some (meaning, rest) →
      property meaning := by
    intro answers meaning rest found
    induction answers with
    | nil => cases found
    | cons answer later inductionHypothesis =>
        unfold Question.ask at found
        split at found
        · next other read =>
          cases found
          exact reads answer meaning read
        · exact inductionHypothesis found
  intro state meaning succeeds
  rw [run_ask] at succeeds
  split at succeeds
  · next other answers found =>
    cases succeeds
    exact used state.answers meaning answers found
  · cases succeeds

/-- The examples that can be chosen are those that there are. -/
theorem exampleQuestion_offers : Yields (· ∈ Examples.names) (ask exampleQuestion) := by
  refine ask_yields fun answer name read => ?_
  simp only [exampleQuestion, Question.choiceOr] at read
  split at read
  · cases read
    decide
  · split at read
    · next offered =>
      cases read
      exact List.contains_iff_mem.mp offered
    · cases read

/-- So does a bundled machine without rules. -/
theorem loadExample_unusable {settings : Settings} {name : String} {between : State}
    (chosen : ExceptT.run (ask exampleQuestion) state = (.ok name, between))
    (unusable : (MachineChoice.bundled name).Unusable between.workspace) :
    ComesTo (loadExample settings) state none := by
  have talks := ask_talks exampleQuestion state
  rw [chosen] at talks
  obtain ⟨source, found⟩ :=
    exists_source_of_mem_names (exampleQuestion_offers state name (congrArg Prod.fst chosen))
  have given : (MachineChoice.bundled name).given? between.workspace =
      some (Source.read source) := by
    rw [MachineChoice.given?, found]
    rfl
  have machine : ExceptT.run (settle (Examples.machine name)) between =
      (.ok (Source.read source), between) := by
    rw [run_settle, Examples.machine, found]
    rfl
  refine comesTo_of_run chosen talks (comesTo_of_run machine (refl_of Talks between) ?_)
  exact (putOnBench_noRules settings (unusable _ given) between).bind
    fun later _ => comesTo_pure later none

/-- A choice of a machine that cannot be loaded leaves the bench and the workspace as they
were. -/
theorem perform_unusable {item : MenuItem} {choosing : Session MachineChoice}
    (loads : chooseMachine bench.settings item = some choosing) {choice : MachineChoice}
    {between : State} (chosen : ExceptT.run choosing state = (.ok choice, between))
    (unusable : choice.Unusable state.workspace) (surroundings : Surroundings) :
    ComesTo (perform surroundings item bench) state bench := by
  cases item with
  | loadFile =>
      obtain rfl := Option.some.inj loads
      obtain ⟨path, middle, picked, ended⟩ := exists_of_bind_ok (congrArg Prod.fst chosen)
      rw [ended, run_pure] at chosen
      cases chosen
      have talks := choosePath_talks bench.settings state
      rw [picked] at talks
      rw [← talks.workspace] at unusable
      exact (loadFile_unusable picked unusable).bind fun later _ => comesTo_pure later bench
  | loadExample =>
      obtain rfl := Option.some.inj loads
      obtain ⟨name, middle, picked, ended⟩ := exists_of_bind_ok (congrArg Prod.fst chosen)
      rw [ended, run_pure] at chosen
      cases chosen
      have talks := ask_talks exampleQuestion state
      rw [picked] at talks
      rw [← talks.workspace] at unusable
      exact (loadExample_unusable picked unusable).bind fun later _ => comesTo_pure later bench
  | _ => cases loads

/-- What fails although nothing is done after it but to make a value has failed by itself. -/
theorem run_error_of_map {α β : Type} {first : Session α} {make : α → β}
    {breakdown : Breakdown Terminal.Failure} {after : State}
    (fails : ExceptT.run (do return make (← first)) state = (.error breakdown, after)) :
    ExceptT.run first state = (.error breakdown, after) := by
  rw [run_bind] at fails
  split at fails
  · cases fails
  · next ended =>
    cases fails
    exact ended

/-- A choice of a machine that cannot be made is the end of the session, and changes nothing. -/
theorem run_perform_unchosen {item : MenuItem} {choosing : Session MachineChoice}
    (loads : chooseMachine bench.settings item = some choosing)
    {breakdown : Breakdown Terminal.Failure} {between : State}
    (unchosen : ExceptT.run choosing state = (.error breakdown, between))
    (surroundings : Surroundings) : Talks state between ∧
      ExceptT.run (perform surroundings item bench) state = (.error breakdown, between) := by
  cases item with
  | loadFile =>
      obtain rfl := Option.some.inj loads
      have picking := run_error_of_map unchosen
      have talks := choosePath_talks bench.settings state
      rw [picking] at talks
      have loading : ExceptT.run (loadFile bench.settings) state = (.error breakdown, between) := by
        rw [loadFile_eq, run_bind_error picking]
      exact ⟨talks, run_bind_error loading⟩
  | loadExample =>
      obtain rfl := Option.some.inj loads
      have picking := run_error_of_map unchosen
      have talks := ask_talks exampleQuestion state
      rw [picking] at talks
      have loading : ExceptT.run (loadExample bench.settings) state =
          (.error breakdown, between) := run_bind_error picking
      exact ⟨talks, run_bind_error loading⟩
  | _ => cases loads

/-- New settings are saved once they were asked for. -/
theorem editSettings_eq (path : String) (settings : Settings) :
    editSettings path settings = (askEdit settings >>= fun changes => do
      match ← attempt refusesEdit (saveEdited (Keyed.merge settings.entries changes) path) with
      | .ok edited =>
        say .saved
        return edited
      | .error fault =>
        say (.notSaved fault)
        return settings) :=
  (bind_assoc (say .editing) (fun _ => askSettings settings) _).symm

/-- Settings that are refused are not saved, and those that were there go on. -/
theorem editSettings_refused {settings : Settings} {changes : Settings.Entries}
    {between : State} (asked : ExceptT.run (askEdit settings) state = (.ok changes, between))
    {fault : SettingsFault}
    (refused : Settings.check (Keyed.merge settings.entries changes) = .error fault)
    (path : String) : ComesTo (editSettings path settings) state settings := by
  have talks := askEdit_talks settings state
  rw [asked] at talks
  have attempted : ExceptT.run (attempt refusesEdit
      (saveEdited (Keyed.merge settings.entries changes) path)) between =
        (.ok (.error (.settings fault)), between) := by
    rw [run_attempt, saveEdited, Settings.ofEntries_eq_error refused]
    rfl
  rw [editSettings_eq]
  refine comesTo_of_run asked talks (comesTo_of_run attempted (refl_of Talks between) ?_)
  exact (say_comesTo (.notSaved (.settings fault)) (by rintro _ ⟨⟩) between).bind
    fun later _ => comesTo_pure later settings

/-- Settings that are refused leave the bench and the workspace as they were. -/
theorem perform_refused (inStep : bench.InStep) {changes : Settings.Entries}
    {between : State} (asked : ExceptT.run (askEdit bench.settings) state = (.ok changes, between))
    {fault : SettingsFault}
    (refused : Settings.check (Keyed.merge bench.settings.entries changes) = .error fault)
    (surroundings : Surroundings) :
    ComesTo (perform surroundings .editSettings bench) state bench := by
  refine (editSettings_refused asked refused surroundings.settingsPath).bind fun later _ => ?_
  rw [inStep.withSettings_eq]
  exact comesTo_pure later bench

/-- A round does what the item says that is chosen in it, unless that is to leave. -/
theorem round_eq (surroundings : Surroundings) (bench : Bench) :
    round surroundings bench = (chooseItem bench >>= fun item =>
      if item == .leave then do
        say .goodbye
        return none
      else return some (← perform surroundings item bench)) := by
  simp only [round, chooseItem, bind_assoc]

/-- A round comes to what the item comes to that is chosen in it. -/
theorem round_comesTo {item : MenuItem} {asked : State}
    (chosen : ExceptT.run (chooseItem bench) state = (.ok item, asked)) (stays : item ≠ .leave)
    (talks : Talks state asked) {next : Bench}
    (performs : ComesTo (perform surroundings item bench) asked next) :
    ComesTo (round surroundings bench) state (some next) := by
  rw [round_eq]
  refine comesTo_of_run chosen talks ?_
  rw [if_neg (by simpa using stays)]
  exact performs.bind fun later _ => comesTo_pure later (some next)

/-- A round that can be evaluated to the end is followed by another. -/
theorem exists_of_round {holds : Bench → Bool}
    (goesOn : (ExceptT.run (round surroundings bench) state).1.toOption.join.any holds = true) :
    ∃ next after, ExceptT.run (round surroundings bench) state = (.ok (some next), after) ∧
      holds next = true := by
  cases ended : ExceptT.run (round surroundings bench) state with
  | mk result after =>
      rw [ended] at goesOn
      rcases result with fault | (_ | next)
      · cases goesOn
      · cases goesOn
      · exact ⟨next, after, rfl, goesOn⟩

/-- What holds of a bench with which the menu is shown in a state. -/
structure Steady (surroundings : Surroundings) (bench : Bench) (state : State) : Prop where
  /-- The machine on it obeys the settings. -/
  inStep : bench.InStep
  /-- A machine that cannot be loaded changes nothing. -/
  unusable : ∀ item asked choosing choice between,
    ExceptT.run (chooseItem bench) state = (.ok item, asked) →
    chooseMachine bench.settings item = some choosing →
    ExceptT.run choosing asked = (.ok choice, between) →
    choice.Unusable state.workspace →
    ComesTo (round surroundings bench) state (some bench)
  /-- A machine that cannot even be chosen is the end of the session and changes nothing. -/
  unchosen : ∀ item asked choosing breakdown between,
    ExceptT.run (chooseItem bench) state = (.ok item, asked) →
    chooseMachine bench.settings item = some choosing →
    ExceptT.run choosing asked = (.error breakdown, between) →
    Talks state between ∧
      ExceptT.run (round surroundings bench) state = (.error breakdown, between)
  /-- Settings that are refused change nothing. -/
  refused : ∀ asked changes between fault,
    ExceptT.run (chooseItem bench) state = (.ok .editSettings, asked) →
    ExceptT.run (askEdit bench.settings) asked = (.ok changes, between) →
    Settings.check (Keyed.merge bench.settings.entries changes) = .error fault →
    ComesTo (round surroundings bench) state (some bench)

/-- Whatever the answers and the interruptions of a session, whenever the menu is shown the
machine on the bench obeys the settings.  A machine that cannot be loaded then, or settings that
are refused, leave the machine with its configuration, history and name as it was, and so the
settings, the files and the directories. -/
theorem steady_of_showsMenu (fresh : first.Fresh)
    (shown : ShowsMenu surroundings first begun bench state) :
    Steady surroundings bench state := by
  have inStep := shown.inStep fresh
  have asking : ∀ item asked, ExceptT.run (chooseItem bench) state = (.ok item, asked) →
      Talks state asked := by
    intro item asked chosen
    have talks := chooseItem_talks bench state
    rwa [chosen] at talks
  have staying : ∀ item choosing, chooseMachine bench.settings item = some choosing →
      item ≠ .leave := by
    rintro _ _ loads rfl
    cases loads
  refine ⟨inStep, ?_, ?_, ?_⟩
  · intro item asked choosing choice between chosen loads picked unusable
    have talks := asking item asked chosen
    rw [← talks.workspace] at unusable
    exact round_comesTo chosen (staying item choosing loads) talks
      (perform_unusable loads picked unusable surroundings)
  · intro item asked choosing breakdown between chosen loads unchosen
    obtain ⟨further, performed⟩ := run_perform_unchosen loads unchosen surroundings
    refine ⟨trans_of Talks (asking item asked chosen) further, ?_⟩
    have stays := staying item choosing loads
    rw [round_eq, run_bind_ok chosen, if_neg (by simpa using stays), run_bind_error performed]
  · intro asked changes between fault chosen edits refused
    exact round_comesTo chosen nofun (asking _ asked chosen)
      (perform_refused inStep edits refused surroundings)

end Terminal

/-- A bench with a bundled machine under the defaults. -/
def incrementBench : Bench where
  settings := Settings.defaults
  loaded := some ⟨.atStart (Source.read Examples.binaryIncrement) Settings.defaults.writeBlank
    Settings.defaults.keepHistory, "binary-increment"⟩

/-- A user who turns both switches on. -/
def switchingUser : State where
  workspace := {}
  answers := ["8", "", "", "", "y", "y", ""]

/-- A session on the second of January. -/
def januarySession : Surroundings where
  settingsPath := "config.json"
  journal := ⟨"logs/", "turingtape_", "2024-01-02"⟩
  moment := { year := 2024, month := 1, day := 2 }

/-- The menu is shown again after both switches were turned on. -/
theorem steady_of_showsMenu_switched :
    ∃ bench state,
      @ShowsMenu Terminal.strict januarySession incrementBench switchingUser bench state ∧
      (bench.settings.writeBlank && bench.settings.keepHistory && bench.loaded.isSome) = true ∧
      @Steady Terminal.strict januarySession bench state := by
  have fresh : incrementBench.Fresh := .loaded _ _ _
  have evaluated : (ExceptT.run (@round Terminal.strict januarySession incrementBench)
      switchingUser).1.toOption.join.any (fun bench => bench.settings.writeBlank &&
        bench.settings.keepHistory && bench.loaded.isSome) = true := by
    decide +kernel
  obtain ⟨bench, state, goesOn, switched⟩ := @exists_of_round Terminal.strict _ _ _ _ evaluated
  have shown := @ShowsMenu.next Terminal.strict _ _ _ _ _ _ _
    (@ShowsMenu.first Terminal.strict januarySession incrementBench switchingUser) goesOn
  exact ⟨bench, state, shown, switched, @steady_of_showsMenu Terminal.strict _ _ _ _ _ fresh shown⟩

end TapeLab.Session
