import TapeLab.Proofs.Fallible
import TapeLab.Session.Basic

/-!
# What a session says

Notices that are said one after another are shown up to the first that the terminal refuses
(`run_forM_say`).  Whatever a session does, it adds to what was shown (`Tells`).  An operation that
does nothing but show and ask leaves the workspace and the settings as they are, and nobody has to
wait (`Talks`).
-/

namespace TapeLab.Session

open Console Fallible

/-- A state after more was shown. -/
def State.telling (told : List Notice) (state : State) : State :=
  { state with notices := state.notices ++ told.toArray }

namespace State

variable (told : List Notice) (state : State)

@[simp]
theorem telling_workspace : (state.telling told).workspace = state.workspace :=
  rfl

@[simp]
theorem telling_settings : (state.telling told).settings = state.settings :=
  rfl

@[simp]
theorem telling_answers : (state.telling told).answers = state.answers :=
  rfl

@[simp]
theorem telling_nil : state.telling [] = state := by
  simp [telling]

theorem telling_append (others : List Notice) :
    state.telling (told ++ others) = (state.telling told).telling others := by
  simp [telling]

end State

/-! ### Telling -/

/-- Since then only notices of some kind were shown. -/
def Tells (kind : Notice → Prop) (before after : State) : Prop :=
  ∃ told : List Notice, after.notices = before.notices ++ told.toArray ∧ ∀ notice ∈ told, kind notice

section Tells

variable {kind : Notice → Prop} {before after : State}

instance : IsPreorder State (Tells kind) where
  refl state := ⟨[], by simp, by simp⟩
  trans := by
    rintro before between after ⟨earlier, begun, fits⟩ ⟨later, ended, others⟩
    refine ⟨earlier ++ later, by simp [ended, begun], fun notice member => ?_⟩
    exact (List.mem_append.mp member).elim (fits notice) (others notice)

/-- What shows nothing tells nothing. -/
theorem tells_of_notices_eq (same : after.notices = before.notices) : Tells kind before after :=
  ⟨[], by simp [same], by simp⟩

theorem tells_telling {told : List Notice} (fits : ∀ notice ∈ told, kind notice) (state : State) :
    Tells kind state (state.telling told) :=
  ⟨told, rfl, fits⟩

end Tells

/-- A notice that is no pause. -/
def Notice.Quick (notice : Notice) : Prop :=
  ∀ seconds, notice ≠ .pause seconds

/-- Since then nobody had to wait. -/
abbrev Unpaused : State → State → Prop :=
  Tells Notice.Quick

/-- Nothing was done but talking. -/
structure Talks (before after : State) : Prop where
  workspace : after.workspace = before.workspace
  settings : after.settings = before.settings
  unpaused : Unpaused before after

instance : IsPreorder State Talks where
  refl state := ⟨rfl, rfl, refl_of Unpaused state⟩
  trans _ _ _ first second :=
    ⟨second.workspace.trans first.workspace, second.settings.trans first.settings,
      trans_of Unpaused first.unpaused second.unpaused⟩

variable [Terminal] {α : Type}

/-! ### Saying -/

/-- What saying some notices comes to: the terminal fails at the first that it refuses. -/
def verdict (notices : List Notice) : Except (Breakdown Terminal.Failure) Unit :=
  match notices.findSome? Notice.refusal? with
  | some failure => .error (.terminal failure)
  | none => .ok ()

/-- The notices up to the first that is refused. -/
def shownOf (notices : List Notice) : List Notice :=
  notices.takeWhile fun notice => notice.refusal?.isNone

theorem verdict_cons_of_none {notice : Notice} (shows : notice.refusal? = none)
    (rest : List Notice) : verdict (notice :: rest) = verdict rest := by
  simp [verdict, shows]

theorem verdict_cons_of_some {notice : Notice} {failure : Terminal.Failure}
    (refused : notice.refusal? = some failure) (rest : List Notice) :
    verdict (notice :: rest) = .error (.terminal failure) := by
  simp [verdict, refused]

theorem verdict_of_forall {notices : List Notice}
    (shows : ∀ notice ∈ notices, notice.refusal? = none) : verdict notices = .ok () := by
  have none : notices.findSome? Notice.refusal? = none := List.findSome?_eq_none_iff.mpr shows
  rw [verdict, none]

theorem shownOf_of_forall {notices : List Notice}
    (shows : ∀ notice ∈ notices, notice.refusal? = none) : shownOf notices = notices := by
  have all := @List.takeWhile_append_of_pos _ (fun notice : Notice => notice.refusal?.isNone)
    notices [] fun notice member => by simp [shows notice member]
  simpa [shownOf] using all

/-- What is said either succeeds or fails because of the terminal. -/
theorem verdict_cases (notices : List Notice) :
    verdict notices = .ok () ∨ ∃ failure, verdict notices = .error (.terminal failure) := by
  unfold verdict
  split
  · exact .inr ⟨_, rfl⟩
  · exact .inl rfl

theorem run_say (notice : Notice) (state : State) :
    (say notice).run state = (verdict [notice], state.telling (shownOf [notice])) := by
  unfold say
  cases refused : notice.refusal? with
  | some failure => simp [verdict, shownOf, refused]
  | none => simp [verdict, shownOf, refused, State.telling]

theorem forM_say_nil : [].forM say = (pure () : Session Unit) :=
  rfl

theorem forM_say_cons (notice : Notice) (rest : List Notice) :
    (notice :: rest).forM say = (do say notice; rest.forM say) :=
  rfl

theorem forM_say_append (first later : List Notice) :
    (first ++ later).forM say = (do first.forM say; later.forM say) :=
  List.forM_append

/-- Notices are said one after another, up to the first that is refused. -/
theorem run_forM_say (notices : List Notice) (state : State) :
    (notices.forM say).run state = (verdict notices, state.telling (shownOf notices)) := by
  induction notices generalizing state with
  | nil =>
      rw [shownOf, List.takeWhile_nil, State.telling_nil]
      rfl
  | cons notice rest inductionHypothesis =>
      rw [forM_say_cons, run_bind, run_say]
      cases refused : notice.refusal? with
      | some failure =>
          rw [verdict_cons_of_some refused, verdict_cons_of_some refused]
          simp [shownOf, refused]
      | none =>
          rw [verdict_cons_of_none refused, verdict_cons_of_none refused]
          have later := inductionHypothesis (state.telling (shownOf [notice]))
          rw [← State.telling_append] at later
          simpa [verdict, shownOf, refused] using later

/-- A notice that is shown. -/
theorem run_say_of_none {notice : Notice} (shows : notice.refusal? = none) (state : State) :
    (say notice).run state = (.ok (), state.telling [notice]) := by
  simp [run_say, verdict, shownOf, shows]

/-! ### Using the workspace and asking -/

/-- Using the workspace has the result that it has by itself. -/
theorem run_onWorkspace (operation : Storage α) (state : State) :
    (onWorkspace operation).run state =
      ((operation.run state.workspace).1.mapError .fault,
        { state with workspace := (operation.run state.workspace).2 }) :=
  rfl

/-- An attempt ends as its operation does, but with a failure that is survived as a result. -/
theorem run_attempt (survives : Fault → Bool) (operation : Storage α) (state : State) :
    (attempt survives operation).run state =
      (match (operation.run state.workspace).1 with
        | .ok value => .ok (.ok value)
        | .error fault => if survives fault then .ok (.error fault) else .error (.fault fault),
        { state with workspace := (operation.run state.workspace).2 }) :=
  rfl

@[simp]
theorem run_settle (result : Except Fault α) (state : State) :
    ExceptT.run (settle result) state = (result.mapError .fault, state) :=
  run_liftExcept _ state

/-- A question is asked until an answer can be used or there are no more. -/
theorem run_ask (question : Question α) (state : State) :
    ExceptT.run (ask question) state =
      match (question.ask state.answers).2 with
      | some (meaning, answers) => (.ok meaning,
          { state.telling (asking question.text (question.ask state.answers).1) with answers })
      | none => (.error (.fault .answersExhausted),
          { state.telling (asking question.text (question.ask state.answers).1) with
            answers := [] }) := by
  rw [ask, run_bind_ok (run_get state)]
  cases asked : question.ask state.answers with
  | mk complaints found => cases found <;> rfl

/-! ### What is told by every part of a session -/

section Parts

variable {kind : Notice → Prop}

theorem shownOf_subset (notices : List Notice) : shownOf notices ⊆ notices :=
  List.takeWhile_subset _

theorem forM_say_tells {notices : List Notice} (fits : ∀ notice ∈ notices, kind notice) :
    Relates (Tells kind) (notices.forM say) := by
  intro state
  rw [run_forM_say]
  exact tells_telling (fun notice member => fits notice (shownOf_subset notices member)) state

theorem say_tells {notice : Notice} (fits : kind notice) : Relates (Tells kind) (say notice) := by
  intro state
  rw [run_say]
  refine tells_telling (fun other member => ?_) state
  rw [List.mem_singleton.mp (shownOf_subset [notice] member)]
  exact fits

theorem onWorkspace_tells (operation : Storage α) : Relates (Tells kind) (onWorkspace operation) :=
  fun _ => tells_of_notices_eq rfl

/-- What follows an attempt may rely on where its failure comes from. -/
theorem attempt_bind_tells {β : Type} {survives : Fault → Bool} {operation : Storage α}
    {next : Except Fault α → Session β} (succeeds : ∀ value, Relates (Tells kind) (next (.ok value)))
    (fails : ∀ workspace fault, (operation.run workspace).1 = .error fault →
      survives fault = true → Relates (Tells kind) (next (.error fault))) :
    Relates (Tells kind) (attempt survives operation >>= next) := by
  intro state
  have attempted := run_attempt survives operation state
  have still : Tells kind state { state with workspace := (operation.run state.workspace).2 } :=
    tells_of_notices_eq rfl
  cases ended : (operation.run state.workspace).1 with
  | ok value =>
      rw [ended] at attempted
      rw [run_bind_ok attempted]
      exact trans_of (Tells kind) still (succeeds value _)
  | error fault =>
      cases survived : survives fault with
      | true =>
          simp only [ended, survived, if_true] at attempted
          rw [run_bind_ok attempted]
          exact trans_of (Tells kind) still (fails state.workspace fault ended survived _)
      | false =>
          simp only [ended, survived, Bool.false_eq_true, if_false] at attempted
          rw [run_bind_error attempted]
          exact still

theorem settle_tells (result : Except Fault α) : Relates (Tells kind) (settle result) :=
  .liftExcept _

/-- A question is asked in its own words, and complains in its own. -/
theorem ask_tells {question : Question α} (asks : kind (.question question.text))
    (complains : ∀ answer complaint, question.read answer = .error complaint →
      kind (.complaint complaint)) : Relates (Tells kind) (ask question) := by
  have own : ∀ answers, ∀ complaint ∈ (question.ask answers).1, kind (.complaint complaint) := by
    intro answers
    induction answers with
    | nil => nofun
    | cons answer rest inductionHypothesis =>
        unfold Question.ask
        split
        · nofun
        · next complaint read =>
          exact List.forall_mem_cons.mpr ⟨complains answer complaint read, inductionHypothesis⟩
  have fits : ∀ answers, ∀ notice ∈ asking question.text (question.ask answers).1, kind notice := by
    intro answers notice member
    rcases List.mem_append.mp member with again | last
    · obtain ⟨complaint, inside, found⟩ := List.mem_flatMap.mp again
      simp only [List.mem_cons, List.not_mem_nil, or_false] at found
      rcases found with rfl | rfl
      · exact asks
      · exact own answers complaint inside
    · rw [List.mem_singleton.mp last]
      exact asks
  intro state
  have told := tells_telling (fits state.answers) state
  rw [run_ask]
  split <;> exact told

end Parts

/-! ### Talking -/

theorem forM_say_talks {notices : List Notice}
    (quick : ∀ notice ∈ notices, notice.Quick) :
    Relates Talks (notices.forM say) := by
  intro state
  have tells := forM_say_tells quick state
  rw [run_forM_say] at tells ⊢
  exact ⟨rfl, rfl, tells⟩

theorem say_talks (notice : Notice) (quick : notice.Quick) : Relates Talks (say notice) := by
  intro state
  have tells := say_tells quick state
  rw [run_say] at tells ⊢
  exact ⟨rfl, rfl, tells⟩

theorem onWorkspace_talks {operation : Storage α} (reads : Relates Eq operation) :
    Relates Talks (onWorkspace operation) := by
  intro state
  rw [run_onWorkspace, ← reads state.workspace]
  exact refl_of Talks state

theorem settle_talks (result : Except Fault α) : Relates Talks (settle result) :=
  .liftExcept _

theorem ask_talks (question : Question α) : Relates Talks (ask question) := by
  intro state
  have asks : Notice.Quick (.question question.text) := nofun
  have tells := ask_tells asks (fun _ _ _ => nofun) state
  rw [run_ask] at tells ⊢
  cases found : (question.ask state.answers).2 with
  | none =>
      rw [found] at tells
      exact ⟨rfl, rfl, tells⟩
  | some used =>
      rw [found] at tells
      exact ⟨rfl, rfl, tells⟩

end TapeLab.Session
