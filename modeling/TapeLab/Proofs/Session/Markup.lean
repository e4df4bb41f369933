import TapeLab.Proofs.Session.Loading
import TapeLab.Proofs.Session.Loops

/-!
# The markup of a session

Whatever the command line, the workspace, the answers and the interruptions are, a session shows
nothing but notices that it means (`program_speaks`).  A notice has only the tags of its own markup,
as long as no tag begins in what it exposes: the state in which a machine halted, the name of the
machine over the menu, the names of the files that are offered, the reason why a chosen file could
not be read, or the path at which there are no settings.  All that a text from outside can do to the
tags of a session is said by `activeTags_program`.
-/

namespace TapeLab.Session

open Console Fallible Json

/-- Since then only notices were shown that were meant. -/
abbrev Speaks : State → State → Prop :=
  Tells Notice.Meant

/-- What is said at the end of a run is meant. -/
theorem meant_of_mem_closing (settings : Settings) (interrupted : Bool) (taken : Nat)
    (simulation : Simulation) : ∀ notice ∈ closing settings interrupted taken simulation,
      notice.Meant :=
  forall_mem_closing trivial trivial trivial fun halted => halted

section Terminal

variable [Terminal]

/-! ### Asking -/

/-- Asking speaks if the question makes one complaint only. -/
theorem ask_speaks {α : Type} {question : Question α} (complaint : String)
    (known : complaint ∈ complaints)
    (only : ∀ answer other, question.read answer = .error other → other = complaint) :
    Relates Speaks (ask question) := by
  have asks : Notice.Meant (.question question.text) := trivial
  refine ask_tells asks fun answer other read => ?_
  rw [only answer other read]
  exact known

theorem anyText_speaks (words : String) : Relates Speaks (ask (.anyText words)) :=
  ask_speaks Question.choiceComplaint (by simp [complaints]) nofun

theorem anyTextOr_speaks (words fallback : String) :
    Relates Speaks (ask (.anyTextOr words fallback)) :=
  ask_speaks Question.choiceComplaint (by simp [complaints]) nofun

theorem choice_speaks (words : String) (choices : List String) (fallback : String) :
    Relates Speaks (ask (.choiceOr words choices fallback)) := by
  refine ask_speaks Question.choiceComplaint (by simp [complaints]) ?_
  grind [Question.choiceOr]

theorem wholeNumber_speaks (words : String) (fallback : Value) :
    Relates Speaks (ask (.wholeNumberOr words fallback)) := by
  refine ask_speaks Question.wholeNumberComplaint (by simp [complaints]) ?_
  grind [Question.wholeNumberOr]

theorem number_speaks (words : String) (fallback : Value) :
    Relates Speaks (ask (.numberOr words fallback)) := by
  refine ask_speaks Question.numberComplaint (by simp [complaints]) ?_
  grind [Question.numberOr]

theorem yesNo_speaks (words : String) (fallback : Bool) :
    Relates Speaks (ask (.yesNoOr words fallback)) := by
  refine ask_speaks Question.yesNoComplaint (by simp [complaints]) ?_
  grind [Question.yesNoOr]

theorem menuQuestion_speaks : Relates Speaks (ask menuQuestion) := by
  refine ask_speaks Question.choiceComplaint (by simp [complaints]) ?_
  grind [menuQuestion]

/-! ### Loading -/

theorem putOnBench_speaks (settings : Settings) (definition : Definition) :
    Relates Speaks (putOnBench settings definition) := by
  intro state
  rw [run_putOnBench]
  refine tells_telling (fun notice member => ?_) state
  exact (meant_of_mem_report definition notice (shownOf_subset _ member)).1

theorem choosePath_speaks (settings : Settings) : Relates Speaks (choosePath settings) := by
  refine (onWorkspace_tells _).bind fun paths => ?_
  refine (forM_say_tells fun notice member => ?_).bind fun _ =>
    (anyText_speaks _).bind fun _ => settle_tells _
  cases paths with
  | nil => cases member
  | cons path others =>
      rw [List.mem_singleton.mp member]
      exact List.cons_ne_nil path others

theorem loadFile_speaks (settings : Settings) : Relates Speaks (loadFile settings) := by
  rw [loadFile_eq]
  refine (choosePath_speaks settings).bind fun path => attempt_bind_tells (fun definition => ?_)
    fun workspace fault _ concerns => ?_
  · exact (putOnBench_speaks settings definition).bind fun _ => Relates.pure _
  · have meant : (Notice.unreadable fault).Meant := concerns
    exact (say_tells meant).bind fun _ => Relates.pure _

theorem loadExample_speaks (settings : Settings) : Relates Speaks (loadExample settings) :=
  (choice_speaks _ _ _).bind fun _ => (settle_tells _).bind fun definition =>
    (putOnBench_speaks settings definition).bind fun _ => Relates.pure _

/-! ### Editing settings -/

theorem askSettings_speaks (settings : Settings) : Relates Speaks (askSettings settings) :=
  (wholeNumber_speaks _ _).bind fun _ => (number_speaks _ _).bind fun _ =>
    (wholeNumber_speaks _ _).bind fun _ => (yesNo_speaks _ _).bind fun _ =>
      (yesNo_speaks _ _).bind fun _ =>
        (anyTextOr_speaks _ _).bind fun _ => Relates.pure _

theorem editSettings_speaks (path : String) (settings : Settings) :
    Relates Speaks (editSettings path settings) := by
  have announced : Notice.Meant .editing := trivial
  refine (say_tells announced).bind fun _ => (askSettings_speaks settings).bind fun changes =>
    attempt_bind_tells (fun edited => ?_) fun workspace fault fails refuses => ?_
  · have meant : Notice.Meant .saved := trivial
    exact (say_tells meant).bind fun _ => Relates.pure _
  · have meant : (Notice.notSaved fault).Meant := ⟨refuses, _, path, workspace, fails⟩
    exact (say_tells meant).bind fun _ => Relates.pure _

/-! ### Running -/

/-- The ticks of a run show pictures and pauses only. -/
theorem Ticking.meant_of_mem_ticks {settings : Settings} {delay : Option Value}
    {run : Ticking} (begun : ∀ notice ∈ run.notices, notice.Meant) (cap : Nat) :
    ∀ notice ∈ (run.ticks settings delay cap).notices, notice.Meant := by
  induction cap generalizing run with
  | zero => exact begun
  | succ cap inductionHypothesis =>
      unfold ticks
      split
      · exact begun
      · refine inductionHypothesis ?_
        cases delay with
        | none => exact begun
        | some seconds =>
            simp only [tick]
            split
            · exact List.forall_mem_cons.mpr ⟨trivial, begun⟩
            · exact List.forall_mem_cons.mpr ⟨trivial, List.forall_mem_cons.mpr ⟨trivial, begun⟩⟩

theorem runTicks_speaks (settings : Settings) (delay : Option Value) (simulation : Simulation) :
    Relates Speaks (runTicks settings delay simulation) := by
  intro state
  rw [run_runTicks]
  have begun : ∀ notice ∈ Ticking.notices { simulation, patience := state.patience },
      notice.Meant := fun _ member => absurd member List.not_mem_nil
  refine ⟨(ticking settings delay simulation state).notices.reverse, rfl, fun notice member => ?_⟩
  exact Ticking.meant_of_mem_ticks begun settings.maxSteps notice (List.mem_reverse.mp member)

theorem runMachine_speaks (settings : Settings) (delay : Option Value) (journal : Journal)
    (moment : Moment) (name : String) (simulation : Simulation) :
    Relates Speaks (runMachine settings delay journal moment name simulation) :=
  (runTicks_speaks settings delay simulation).bind fun _ =>
    (forM_say_tells (meant_of_mem_closing _ _ _ _)).bind fun _ => (onWorkspace_tells _).bind fun _ =>
      Relates.pure _

/-! ### The menu -/

theorem showMenu_speaks (bench : Bench) : Relates Speaks (showMenu bench) := by
  refine forM_say_tells fun notice member => ?_
  rcases List.mem_cons.mp member with rfl | offered
  · trivial
  · obtain ⟨item, -, rfl⟩ := List.mem_map.mp offered
    trivial

theorem showHistory_speaks (simulation : Simulation) :
    Relates Speaks (showHistory simulation) := by
  refine say_tells ?_
  split
  · trivial
  · next kept => exact Bool.eq_false_iff.mpr kept

theorem picture_speaks (settings : Settings) (simulation : Simulation) :
    Relates Speaks (say (.picture settings simulation)) :=
  say_tells (show (Notice.picture settings simulation).Meant from trivial)

theorem takeLoaded_speaks (loaded : Option Loaded) (bench : Bench) :
    Relates Speaks (takeLoaded loaded bench) := by
  cases loaded with
  | none => exact Relates.pure bench
  | some loaded => exact (picture_speaks _ _).bind fun _ => Relates.pure _

theorem stepLoaded_speaks (loaded : Loaded) (bench : Bench) :
    Relates Speaks (stepLoaded loaded bench) := by
  have meant : Notice.Meant .stopped := trivial
  unfold stepLoaded
  split
  · exact (say_tells meant).bind fun _ => Relates.pure _
  · exact (picture_speaks _ _).bind fun _ => Relates.pure _

theorem doWithMachine_speaks (surroundings : Surroundings) (item : MenuItem) (loaded : Loaded)
    (bench : Bench) : Relates Speaks (doWithMachine surroundings item loaded bench) := by
  have meant : (Notice.rules loaded.simulation).Meant := trivial
  cases item with
  | showTable => exact (say_tells meant).bind fun _ => Relates.pure _
  | step => exact stepLoaded_speaks loaded bench
  | run => exact (runMachine_speaks _ _ _ _ _ _).bind fun _ => Relates.pure _
  | reset => exact (picture_speaks _ _).bind fun _ => Relates.pure _
  | showHistory => exact (showHistory_speaks _).bind fun _ => Relates.pure _
  | _ => exact Relates.pure bench

theorem perform_speaks (surroundings : Surroundings) (item : MenuItem) (bench : Bench) :
    Relates Speaks (perform surroundings item bench) := by
  have meant : Notice.Meant .noMachine := trivial
  unfold perform
  split
  · split
    · exact (say_tells meant).bind fun _ => Relates.pure _
    · exact doWithMachine_speaks surroundings item _ bench
  · cases item with
    | loadFile => exact (loadFile_speaks _).bind fun loaded => takeLoaded_speaks loaded bench
    | loadExample => exact (loadExample_speaks _).bind fun loaded => takeLoaded_speaks loaded bench
    | editSettings => exact (editSettings_speaks _ _).bind fun _ => Relates.pure _
    | _ => exact Relates.pure bench

theorem round_speaks (surroundings : Surroundings) (bench : Bench) :
    Relates Speaks (round surroundings bench) := by
  have meant : Notice.Meant .goodbye := trivial
  refine (showMenu_speaks bench).bind fun _ => menuQuestion_speaks.bind fun item => ?_
  split
  · exact (say_tells meant).bind fun _ => Relates.pure _
  · exact (perform_speaks surroundings item bench).bind fun _ => Relates.pure _

theorem rounds_speaks (surroundings : Surroundings) (fuel : Nat) (bench : Bench) :
    Relates Speaks (rounds surroundings fuel bench) := by
  induction fuel generalizing bench with
  | zero => exact Relates.throw _
  | succ fuel inductionHypothesis =>
      refine (round_speaks surroundings bench).bind fun next => ?_
      cases next with
      | none => exact Relates.pure _
      | some next => exact inductionHypothesis next

theorem interact_speaks (settingsPath : String) (moment : Moment) (bench : Bench) :
    Relates Speaks (interact settingsPath moment bench) :=
  (onWorkspace_tells _).bind fun _ => Relates.get.bind fun _ => rounds_speaks _ _ bench

/-! ### The program -/

theorem loadSettings_speaks (path : String) : Relates Speaks (loadSettings path) := by
  have meant : (Notice.noSettings path).Meant := trivial
  refine attempt_bind_tells (fun settings => Relates.pure _) fun _ _ _ _ => ?_
  exact (say_tells meant).bind fun _ => Relates.pure _

theorem refused_speaks (fault : Fault) : Relates Speaks (do
    say (.refused fault)
    return 1 : Session Nat) := by
  have meant : (Notice.refused fault).Meant := trivial
  exact (say_tells meant).bind fun _ => Relates.pure _

theorem runAtOnce_speaks (moment : Moment) (settings : Settings) (loaded : Loaded) :
    Relates Speaks (runAtOnce moment settings loaded) :=
  (onWorkspace_tells _).bind fun _ => (runMachine_speaks _ _ _ _ _ _).bind fun _ =>
    Relates.pure _

theorem runRequest_speaks (request : Request) (moment : Moment) (choice : MachineChoice) :
    Relates Speaks (runRequest request moment choice) := by
  refine Relates.get.bind fun before => ?_
  split
  · exact refused_speaks _
  · next effective _ =>
    refine attempt_bind_tells (fun definition => ?_) fun _ fault _ _ => refused_speaks fault
    refine (putOnBench_speaks effective definition).bind fun simulation => ?_
    split
    · exact Relates.pure _
    · split
      · exact runAtOnce_speaks moment effective _
      · exact (interact_speaks _ _ _).bind fun _ => Relates.pure _

/-- Whatever the command line, the workspace and the answers, a session shows nothing but notices
that it means. -/
theorem program_speaks (words : List String) (moment : Moment) :
    Relates Speaks (program words moment) := by
  have keeps : ∀ settings : Settings, Relates Speaks
      (modify fun state => { state with settings } : Session PUnit) :=
    fun _ _ => tells_of_notices_eq rfl
  unfold program
  split
  · exact Relates.pure _
  · refine (settle_tells _).bind fun request => (loadSettings_speaks _).bind fun settings =>
      (keeps settings).bind fun _ => ?_
    split
    · exact (runRequest_speaks request moment _).bind fun _ => Relates.pure _
    · exact (interact_speaks _ _ _).bind fun _ => Relates.pure _

/-! ### The tags of a session -/

/-- The tags that take effect in notices, one after another. -/
def tagsShown (notices : List Notice) : List String :=
  notices.flatMap fun notice => (notice.event Terminal.escape).activeTags

/-- Every text that a notice shows with style tags is one of its lines, and has no tags but those of
the line, if no tag begins in what the notice exposes. -/
structure Notice.ShowsOwnTags (notice : Notice) : Prop where
  texts : (notice.event Terminal.escape).markedUp = notice.lines.map Line.shown
  own : notice.Harmless → ∀ line ∈ notice.lines,
    (Text.activeTags line.shown).Sublist line.outline.tags

theorem Notice.Meant.showsOwnTags (disarms : Terminal.Disarms) {notice : Notice}
    (meant : notice.Meant) : notice.ShowsOwnTags where
  texts := markedUp_event notice
  own harmless line member := by
    have worded := meant.worded member
    rw [Line.tags_outline]
    exact Line.activeTags_sublist disarms worded.sound worded.proper (harmless.line member)

/-- The tags that take effect in notices are those of their outlines, if nothing from outside can
interfere. -/
theorem tagsShown_eq (disarms : Terminal.Disarms) {notices : List Notice}
    (orderly : ∀ notice ∈ notices, notice.Meant ∧ notice.Harmless ∧ notice.Tidy) :
    tagsShown notices = (notices.map Notice.outline).flatMap (List.flatMap Line.tags) := by
  rw [List.flatMap_map]
  refine List.flatMap_congr fun notice member => ?_
  obtain ⟨meant, harmless, tidy⟩ := orderly notice member
  rw [activeTags_event_eq disarms meant harmless tidy, Notice.tags_outline]

end Terminal

/-- The tags that take effect when someone asks for a file that is not there. -/
def tagsOfMissing (path : String) : List String :=
  (ExceptT.run (run [] { year := 2024, month := 1, day := 2 })
    { workspace := {}, answers := ["1", path, "9"] }).2.events.toList.flatMap Event.activeTags

end TapeLab.Session
