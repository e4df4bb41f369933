import TapeLab.Proofs.Keyed
import TapeLab.Settings.Basic

/-!
# What a check looks at

Settings are checked by the values of those that must be there, and by nothing else
(`Settings.check_congr`).  So settings that pass the check pass it as well when they are laid over
others (`Settings.check_merge`).
-/

namespace TapeLab

open Json

/-- A loop that only checks is passed exactly if each of its turns is. -/
theorem forM_eq_ok_iff {ε α : Type} {items : List α} {turn : α → Except ε Unit} :
    items.forM turn = .ok () ↔ ∀ item ∈ items, turn item = .ok () := by
  induction items with
  | nil => simp [pure, Except.pure]
  | cons item rest inductionHypothesis =>
      rw [List.forM, List.forall_mem_cons, ← inductionHypothesis]
      cases turn item with
      | error fault => simp [bind, Except.bind]
      | ok passed => simp [bind, Except.bind]

/-- What fails in a loop of checks fails in one of its turns. -/
theorem exists_of_forM_error {ε α : Type} {items : List α} {turn : α → Except ε Unit} {fault : ε}
    (fails : items.forM turn = .error fault) : ∃ item ∈ items, turn item = .error fault := by
  induction items with
  | nil => cases fails
  | cons item rest inductionHypothesis =>
      rw [List.forM] at fails
      cases turned : turn item with
      | error other =>
          rw [turned] at fails
          cases fails
          exact ⟨item, List.mem_cons_self, turned⟩
      | ok passed =>
          rw [turned] at fails
          obtain ⟨later, member, failed⟩ := inductionHypothesis fails
          exact ⟨later, List.mem_cons_of_mem item member, failed⟩

/-- Loops whose turns end alike end alike. -/
theorem forM_congr {ε α : Type} {items : List α} {first second : α → Except ε Unit}
    (same : ∀ item ∈ items, first item = second item) : items.forM first = items.forM second := by
  induction items with
  | nil => rfl
  | cons item rest inductionHypothesis =>
      have later := inductionHypothesis fun other member =>
        same other (List.mem_cons_of_mem item member)
      rw [List.forM, List.forM, same item List.mem_cons_self, later]

namespace Settings

/-- The names of the settings that must be there. -/
def requiredNames : List String :=
  settingKinds.map Prod.fst

variable {entries others : Entries}

/-- Settings that must be there and are the same pass the same check. -/
theorem check_congr (same : ∀ name ∈ requiredNames, named? entries name = named? others name) :
    check entries = check others := by
  have kinds : ∀ setting ∈ settingKinds, checkKind entries setting.1 setting.2 =
      checkKind others setting.1 setting.2 := by
    intro setting member
    simp only [checkKind, same _ (List.mem_map_of_mem member)]
  have steps := same "max_steps" (by decide)
  have window := same "tape_window" (by decide)
  have delay := same "step_delay" (by decide)
  have ranges : checkRanges entries = checkRanges others := by
    unfold checkRanges wholeNumber
    rw [steps, window, delay]
  rw [check, check, forM_congr kinds, ranges]

/-- Settings pass the check if all that must be there are, each of a kind that it may have, and
the numbers are in their ranges. -/
theorem check_eq_ok_iff : check entries = .ok () ↔
    (∀ setting ∈ settingKinds, checkKind entries setting.1 setting.2 = .ok ()) ∧
      checkRanges entries = .ok () := by
  rw [check, ← forM_eq_ok_iff]
  cases kinds : settingKinds.forM fun setting => checkKind entries setting.1 setting.2 with
  | error fault => simp [bind, Except.bind]
  | ok passed => simp [bind, Except.bind]

/-- Which numbers are in their ranges. -/
theorem checkRanges_eq_ok_iff : checkRanges entries = .ok () ↔
    0 < wholeNumber entries "max_steps" ∧ 0 < wholeNumber entries "tape_window" ∧
      ((named? entries "step_delay").map Value.isBelowZero).getD false = false := by
  by_cases steps : wholeNumber entries "max_steps" ≤ 0
  · have refused : checkRanges entries = .error .stepsNotPositive := by
      rw [checkRanges, if_pos steps]
      rfl
    rw [refused]
    exact ⟨nofun, fun ranges => absurd ranges.1 (Int.not_lt.mpr steps)⟩
  by_cases window : wholeNumber entries "tape_window" ≤ 0
  · have refused : checkRanges entries = .error .windowNotPositive := by
      rw [checkRanges, if_neg steps, if_pos window]
      rfl
    rw [refused]
    exact ⟨nofun, fun ranges => absurd ranges.2.1 (Int.not_lt.mpr window)⟩
  by_cases delay : ((named? entries "step_delay").map Value.isBelowZero).getD false = true
  · have refused : checkRanges entries = .error .delayNegative := by
      rw [checkRanges, if_neg steps, if_neg window, if_pos delay]
      rfl
    rw [refused]
    exact ⟨nofun, fun ranges => by simp [delay] at ranges⟩
  · have passed : checkRanges entries = .ok () := by
      rw [checkRanges, if_neg steps, if_neg window, if_neg delay]
      rfl
    rw [passed]
    exact ⟨fun _ => ⟨Int.not_le.mp steps, Int.not_le.mp window, Bool.eq_false_iff.mpr delay⟩,
      fun _ => rfl⟩

/-- Numbers that are refused are refused for one of three reasons, which holds of them. -/
theorem checkRanges_error_cases {fault : SettingsFault}
    (refused : checkRanges entries = .error fault) :
    (fault = .stepsNotPositive ∧ wholeNumber entries "max_steps" ≤ 0) ∨
      (fault = .windowNotPositive ∧ wholeNumber entries "tape_window" ≤ 0) ∨
        (fault = .delayNegative ∧
          ((named? entries "step_delay").map Value.isBelowZero).getD false = true) := by
  unfold checkRanges at refused
  by_cases steps : wholeNumber entries "max_steps" ≤ 0
  · rw [if_pos steps] at refused
    exact Or.inl ⟨(Except.error.inj refused).symm, steps⟩
  rw [if_neg steps] at refused
  by_cases window : wholeNumber entries "tape_window" ≤ 0
  · rw [if_pos window] at refused
    exact Or.inr (Or.inl ⟨(Except.error.inj refused).symm, window⟩)
  rw [if_neg window] at refused
  by_cases delay : ((named? entries "step_delay").map Value.isBelowZero).getD false = true
  · rw [if_pos delay] at refused
    exact Or.inr (Or.inr ⟨(Except.error.inj refused).symm, delay⟩)
  · rw [if_neg delay] at refused
    cases refused

/-- The three reasons. -/
theorem eq_of_checkRanges_error {fault : SettingsFault}
    (refused : checkRanges entries = .error fault) :
    fault = .stepsNotPositive ∨ fault = .windowNotPositive ∨ fault = .delayNegative :=
  (checkRanges_error_cases refused).imp And.left (Or.imp And.left And.left)

/-- Settings that pass the check are all there. -/
theorem named?_isSome_of_check (accepted : check entries = .ok ()) {name : String}
    (required : name ∈ requiredNames) : (named? entries name).isSome = true := by
  obtain ⟨setting, member, rfl⟩ := List.mem_map.mp required
  have here := (check_eq_ok_iff.mp accepted).1 setting member
  cases found : named? entries setting.1 with
  | some value => rfl
  | none =>
      rw [checkKind, found] at here
      cases here

/-- Settings are checked when they are taken as settings. -/
theorem ofEntries_eq_ok (accepted : check entries = .ok ()) :
    ofEntries entries = .ok ⟨entries, accepted⟩ := by
  rw [ofEntries]
  split
  · rfl
  · next refused =>
    rw [accepted] at refused
    cases refused

/-- Settings that are refused are reported as the check reports them. -/
theorem ofEntries_eq_error {fault : SettingsFault} (refused : check entries = .error fault) :
    ofEntries entries = .error fault := by
  rw [ofEntries]
  split
  · next accepted =>
    rw [refused] at accepted
    cases accepted
  · next other =>
    rw [refused] at other
    cases other
    rfl

/-- Of entries laid over others the values of the upper ones are found. -/
theorem named?_merge (distinct : others.Pairwise fun first second => (first.1 == second.1) = false)
    (name : String) : named? (Keyed.merge entries others) name =
      (named? others name).or (named? entries name) :=
  Keyed.get?_merge _ distinct

/-- Settings that pass the check pass it when they are laid over others. -/
theorem check_merge (distinct : others.Pairwise fun first second => (first.1 == second.1) = false)
    (accepted : check others = .ok ()) : check (Keyed.merge entries others) = .ok () := by
  rw [← accepted]
  refine check_congr fun name required => ?_
  rw [named?_merge distinct, Option.or_of_isSome (named?_isSome_of_check accepted required)]

/-! ### Settings under texts -/

section Fields

variable {fields : Fields}

/-- Texts are one label exactly if they are one text. -/
theorem beq_text (left right : String) :
    (Label.text left == Label.text right) = (left == right) := by
  rw [Bool.eq_iff_iff, Label.text_beq_text, beq_iff_eq]

/-- Names that differ are labels that differ. -/
theorem pairwise_entriesOf (distinct : (fields.map Prod.fst).Nodup) :
    (entriesOf fields).Pairwise fun first second => (first.1 == second.1) = false := by
  rw [entriesOf, List.pairwise_map]
  refine (List.pairwise_map.mp distinct).imp fun {first second} apart => ?_
  rw [beq_text, beq_eq_false_iff_ne]
  exact apart

/-- Putting a field is putting its entry. -/
theorem put_entriesOf (name : String) (value : Value) (fields : Fields) :
    Keyed.put (.text name) value (entriesOf fields) =
      entriesOf (Keyed.put name value fields) := by
  induction fields with
  | nil => rfl
  | cons field rest inductionHypothesis =>
      obtain ⟨key, old⟩ := field
      have cut : entriesOf ((key, old) :: rest) = (.text key, old) :: entriesOf rest := rfl
      rw [cut, Keyed.put, Keyed.put, beq_text, inductionHypothesis]
      split <;> rfl

/-- Fields laid over fields are their entries laid over entries. -/
theorem merge_entriesOf (fields others : Fields) :
    Keyed.merge (entriesOf fields) (entriesOf others) = entriesOf (Keyed.merge fields others) := by
  induction others generalizing fields with
  | nil => rfl
  | cons field rest inductionHypothesis =>
      have merged : Keyed.merge (entriesOf fields) (entriesOf (field :: rest)) =
          Keyed.merge (Keyed.put (.text field.1) field.2 (entriesOf fields)) (entriesOf rest) := rfl
      rw [merged, put_entriesOf, inductionHypothesis]
      rfl

/-- A setting under a text is the field of that name. -/
theorem named?_entriesOf (fields : Fields) (name : String) :
    named? (entriesOf fields) name = Keyed.get? fields name := by
  induction fields with
  | nil => rfl
  | cons field rest inductionHypothesis =>
      rw [named?, Keyed.get?, entriesOf] at inductionHypothesis
      rw [named?, Keyed.get?, Keyed.get?, entriesOf, List.map_cons, List.find?_cons, beq_text,
        List.find?_cons]
      split
      · rfl
      · exact inductionHypothesis

/-- A setting that is put is found, and the others stay as they are. -/
theorem named?_put (key : String) (value : Value) (entries : Entries) (name : String) :
    named? (Keyed.put (.text key) value entries) name =
      if key = name then some value else named? entries name := by
  simp only [named?, Keyed.get?_put, beq_text, beq_iff_eq]

/-- Settings with another step cap pass the check exactly if it is a positive number. -/
theorem check_put_maxSteps (accepted : check entries = .ok ()) (value : Value) :
    check (Keyed.put (.text "max_steps") value entries) = .ok () ↔
      value.kind.passesFor .integer = true ∧ 0 < value.wholeNumber?.getD 0 := by
  have ranges := checkRanges_eq_ok_iff.mp (check_eq_ok_iff.mp accepted).2
  have steps : wholeNumber (Keyed.put (.text "max_steps") value entries) "max_steps" =
      value.wholeNumber?.getD 0 := by
    simp [wholeNumber, named?_put]
  have kind : ∀ setting ∈ settingKinds, setting.1 = "max_steps" → setting.2 = [.integer] := by
    decide
  rw [check_eq_ok_iff, checkRanges_eq_ok_iff, steps]
  constructor
  · rintro ⟨kinds, positive, -⟩
    have here := kinds ("max_steps", [.integer]) (by decide)
    simp only [checkKind, named?_put, if_true] at here
    split at here
    · next passes => exact ⟨by simpa using passes, positive⟩
    · cases here
  · rintro ⟨passes, positive⟩
    refine ⟨fun setting member => ?_, positive, ?_⟩
    · by_cases here : "max_steps" = setting.1
      · simp [checkKind, named?_put, here, kind setting member here.symm, passes]
      · have unchanged := (check_eq_ok_iff.mp accepted).1 setting member
        simpa only [checkKind, named?_put, if_neg here] using unchanged
    · simpa [wholeNumber, named?_put] using ranges.2

/-- The defaults as the fields of a record. -/
def defaultFields : Fields :=
  storedFields defaultEntries

/-- The settings that have a default are those that must be there. -/
theorem map_fst_defaultFields : defaultFields.map Prod.fst = requiredNames :=
  rfl

end Fields

end Settings

end TapeLab
