import Mathlib.Algebra.Order.Ring.Unbundled.Rat
import TapeLab.Proofs.Settings.Saving
import TapeLab.Proofs.Workspace.Following

/-!
# Which settings are accepted

Settings are usable if all that must be there are, two of them as positive whole numbers, the delay
as a number that is not below zero, and the others as switches and texts (`Settings.Usable`).  The
check accepts these and a few more, since a truth value passes for a number, and since the
not-a-number value is not below zero (`Settings.judged`).  A file is judged by its entries laid over
the defaults (`Settings.judged_load`).
-/

namespace TapeLab

open Fallible Json Number

/-! ### Numbers that are not below zero -/

/-- A number that is zero or above; the not-a-number value is not. -/
def Number.Binary64.AtLeastZero : Binary64 → Prop
  | .nan => False
  | .infinity negative => negative = false
  | .finite negative significand exponent => 0 ≤ Binary64.ratio negative significand exponent

/-- What is not below zero is zero or above, or not a number. -/
theorem Number.Binary64.isNegative_eq_false_iff {number : Binary64} :
    number.isNegative = false ↔ number.AtLeastZero ∨ number = .nan := by
  cases number with
  | nan => simp [isNegative]
  | infinity negative => simp [isNegative, AtLeastZero]
  | finite negative significand exponent =>
      have divisor : twoTo (-exponent).toNat ≠ 0 := (Nat.two_pow_pos _).ne'
      have factor : twoTo exponent.toNat ≠ 0 := (Nat.two_pow_pos _).ne'
      have scaled : significand = 0 ↔ significand * twoTo exponent.toNat = 0 := by
        rw [Nat.mul_eq_zero, or_iff_left factor]
      rw [AtLeastZero, ratio, Rat.mkRat_nonneg_iff _ divisor]
      generalize significand * twoTo exponent.toNat = numerator at scaled
      have least : 0 ≤ Int.ofNat numerator := Int.natCast_nonneg numerator
      cases negative with
      | false => simp [isNegative]
      | true =>
          simp only [isNegative, Bool.true_and, bne_eq_false_iff_eq, if_true, reduceCtorEq,
            or_false, scaled]
          simp only [Int.ofNat_eq_natCast] at least ⊢
          omega

namespace Settings

variable {entries : Entries} {fault : SettingsFault}

/-! ### Usable settings -/

/-- All settings that must be there are: the two that are whole numbers and the delay as they are
asked to be, the others as switches and texts. -/
structure Complete (whole delay : Value → Prop) (entries : Entries) : Prop where
  maxSteps : ∃ value, named? entries "max_steps" = some value ∧ whole value
  stepDelay : ∃ value, named? entries "step_delay" = some value ∧ delay value
  tapeWindow : ∃ value, named? entries "tape_window" = some value ∧ whole value
  writeBlank : ∃ value, named? entries "write_blank" = some (.bool value)
  showHistory : ∃ value, named? entries "show_history" = some (.bool value)
  machinesDirectory : ∃ value, named? entries "machines_directory" = some (.text value)
  outputDirectory : ∃ value, named? entries "output_directory" = some (.text value)
  logFilePrefix : ∃ value, named? entries "log_file_prefix" = some (.text value)

/-- A whole number above zero. -/
def IsPositive (value : Value) : Prop :=
  ∃ number, value = .integer number ∧ 0 < number

/-- A number that is zero or above, whole or not. -/
def IsDuration (value : Value) : Prop :=
  (∃ number, value = .integer number ∧ 0 ≤ number) ∨
    ∃ number : Binary64, value = .float number ∧ number.AtLeastZero

/-- Settings that a session can be told. -/
def Usable (entries : Entries) : Prop :=
  Complete IsPositive IsDuration entries

/-- What the check takes for a whole number above zero. -/
def PassesForPositive (value : Value) : Prop :=
  IsPositive value ∨ value = .bool true

/-- What the check takes for a delay. -/
def PassesForDuration (value : Value) : Prop :=
  IsDuration value ∨ (∃ truth, value = .bool truth) ∨ value = .float .nan

/-- A truth value stands for a number, or the delay is not a number. -/
def Lax (entries : Entries) : Prop :=
  named? entries "max_steps" = some (.bool true) ∨
    named? entries "tape_window" = some (.bool true) ∨
      (∃ truth, named? entries "step_delay" = some (.bool truth)) ∨
        named? entries "step_delay" = some (.float .nan)

/-- Usable settings are those that the check takes for such, unless they are lax. -/
theorem usable_iff : Usable entries ↔
    Complete PassesForPositive PassesForDuration entries ∧ ¬Lax entries := by
  have noTruth {value : Value} {truth : Bool} : IsPositive value → value ≠ .bool truth := by
    rintro ⟨number, rfl, -⟩ ⟨⟩
  constructor
  · intro usable
    obtain ⟨steps, stepsFound, stepsPositive⟩ := usable.maxSteps
    obtain ⟨delay, delayFound, duration⟩ := usable.stepDelay
    obtain ⟨window, windowFound, windowPositive⟩ := usable.tapeWindow
    refine ⟨{ usable with
      maxSteps := ⟨steps, stepsFound, .inl stepsPositive⟩
      stepDelay := ⟨delay, delayFound, .inl duration⟩
      tapeWindow := ⟨window, windowFound, .inl windowPositive⟩ }, ?_⟩
    rintro (lax | lax | ⟨truth, lax⟩ | lax)
    · exact noTruth stepsPositive (Option.some.inj (stepsFound.symm.trans lax))
    · exact noTruth windowPositive (Option.some.inj (windowFound.symm.trans lax))
    · rw [Option.some.inj (delayFound.symm.trans lax)] at duration
      rcases duration with ⟨_, ⟨⟩, -⟩ | ⟨_, ⟨⟩, -⟩
    · rw [Option.some.inj (delayFound.symm.trans lax)] at duration
      rcases duration with ⟨_, ⟨⟩, -⟩ | ⟨_, ⟨⟩, below⟩
      exact below
  · rintro ⟨complete, strict⟩
    obtain ⟨steps, stepsFound, stepsPass⟩ := complete.maxSteps
    obtain ⟨delay, delayFound, delayPasses⟩ := complete.stepDelay
    obtain ⟨window, windowFound, windowPasses⟩ := complete.tapeWindow
    refine { complete with
      maxSteps := ⟨steps, stepsFound, stepsPass.resolve_right ?_⟩
      stepDelay := ⟨delay, delayFound, delayPasses.resolve_right ?_⟩
      tapeWindow := ⟨window, windowFound, windowPasses.resolve_right ?_⟩ }
    · rintro rfl
      exact strict (.inl stepsFound)
    · rintro (⟨truth, rfl⟩ | rfl)
      · exact strict (.inr (.inr (.inl ⟨truth, delayFound⟩)))
      · exact strict (.inr (.inr (.inr delayFound)))
    · rintro rfl
      exact strict (.inr (.inl windowFound))

/-! ### What the check accepts -/

/-- A setting passes if it is there and of a kind that passes. -/
theorem checkKind_eq_ok_iff {key : String} {allowed : List Kind} :
    checkKind entries key allowed = .ok () ↔
      ∃ value, named? entries key = some value ∧ allowed.any value.kind.passesFor = true := by
  rw [checkKind]
  cases named? entries key with
  | none => simp
  | some value => simp

section Kinds

variable {value : Value}

/-- Whole numbers and truth values pass for whole numbers. -/
theorem passesFor_integer_iff : [Kind.integer].any value.kind.passesFor = true ↔
    (∃ number, value = .integer number) ∨ ∃ truth, value = .bool truth := by
  cases value <;> simp [Value.kind, Kind.passesFor]

/-- Numbers and truth values pass for delays. -/
theorem passesFor_number_iff : [Kind.integer, .float].any value.kind.passesFor = true ↔
    (∃ number, value = .integer number) ∨ (∃ number, value = .float number) ∨
      ∃ truth, value = .bool truth := by
  cases value <;> simp [Value.kind, Kind.passesFor]

/-- Only truth values pass for switches. -/
theorem passesFor_bool_iff : [Kind.bool].any value.kind.passesFor = true ↔
    ∃ truth, value = .bool truth := by
  cases value <;> simp [Value.kind, Kind.passesFor]

/-- Only texts pass for texts. -/
theorem passesFor_text_iff : [Kind.text].any value.kind.passesFor = true ↔
    ∃ text, value = .text text := by
  cases value <;> simp [Value.kind, Kind.passesFor]

/-- A value passes for a positive number if its kind does and it counts for one. -/
theorem passesForPositive_iff : PassesForPositive value ↔
    [Kind.integer].any value.kind.passesFor = true ∧ 0 < value.wholeNumber?.getD 0 := by
  rw [passesFor_integer_iff, PassesForPositive, IsPositive]
  cases value with
  | integer number => simp [Value.wholeNumber?]
  | bool truth => cases truth <;> simp [Value.wholeNumber?]
  | _ => simp

/-- A value passes for a delay if its kind does and it is not below zero. -/
theorem passesForDuration_iff : PassesForDuration value ↔
    [Kind.integer, .float].any value.kind.passesFor = true ∧ value.isBelowZero = false := by
  rw [passesFor_number_iff, PassesForDuration, IsDuration]
  cases value with
  | integer number => simp [Value.isBelowZero]
  | float number => simp [Value.isBelowZero, Binary64.isNegative_eq_false_iff]
  | bool truth => simp [Value.isBelowZero]
  | _ => simp

end Kinds

/-- Switches are settings with a truth value. -/
theorem checkKind_bool_iff {key : String} : checkKind entries key [.bool] = .ok () ↔
    ∃ truth, named? entries key = some (.bool truth) := by
  simp only [checkKind_eq_ok_iff, passesFor_bool_iff]
  constructor
  · rintro ⟨_, found, truth, rfl⟩
    exact ⟨truth, found⟩
  · rintro ⟨truth, found⟩
    exact ⟨_, found, truth, rfl⟩

/-- Names are settings with a text. -/
theorem checkKind_text_iff {key : String} : checkKind entries key [.text] = .ok () ↔
    ∃ text, named? entries key = some (.text text) := by
  simp only [checkKind_eq_ok_iff, passesFor_text_iff]
  constructor
  · rintro ⟨_, found, text, rfl⟩
    exact ⟨text, found⟩
  · rintro ⟨text, found⟩
    exact ⟨_, found, text, rfl⟩

/-- A setting that is of a kind and stands a test is there with a value that does both. -/
theorem checkKind_and_iff {key : String} {allowed : List Kind} {Passes : Value → Prop}
    (test : Option Value → Prop)
    (both : ∀ value, Passes value ↔ allowed.any value.kind.passesFor = true ∧ test (some value)) :
    (checkKind entries key allowed = .ok () ∧ test (named? entries key)) ↔
      ∃ value, named? entries key = some value ∧ Passes value := by
  rw [checkKind_eq_ok_iff]
  cases named? entries key with
  | none => simp
  | some value => simp [both]

/-- The check accepts settings that are complete, as far as it can tell their values apart. -/
theorem check_eq_ok_iff_complete :
    check entries = .ok () ↔ Complete PassesForPositive PassesForDuration entries := by
  have whole {key : String} : (checkKind entries key [.integer] = .ok () ∧
      0 < wholeNumber entries key) ↔
      ∃ value, named? entries key = some value ∧ PassesForPositive value :=
    checkKind_and_iff (fun found => 0 < (found.bind Value.wholeNumber?).getD 0)
      fun _ => passesForPositive_iff
  have delay : (checkKind entries "step_delay" [.integer, .float] = .ok () ∧
      ((named? entries "step_delay").map Value.isBelowZero).getD false = false) ↔
      ∃ value, named? entries "step_delay" = some value ∧ PassesForDuration value :=
    checkKind_and_iff (fun found => (found.map Value.isBelowZero).getD false = false)
      fun _ => passesForDuration_iff
  rw [check_eq_ok_iff, checkRanges_eq_ok_iff]
  simp only [settingKinds, List.forall_mem_cons, List.not_mem_nil, false_implies, implies_true,
    and_true, checkKind_bool_iff, checkKind_text_iff]
  constructor
  · rintro ⟨⟨steps, seconds, window, others⟩, positive, wide, least⟩
    obtain ⟨writeBlank, showHistory, machines, output, label⟩ := others
    exact ⟨whole.mp ⟨steps, positive⟩, delay.mp ⟨seconds, least⟩, whole.mp ⟨window, wide⟩,
      writeBlank, showHistory, machines, output, label⟩
  · rintro ⟨steps, seconds, window, writeBlank, showHistory, machines, output, label⟩
    obtain ⟨steps, positive⟩ := whole.mpr steps
    obtain ⟨window, wide⟩ := whole.mpr window
    obtain ⟨seconds, least⟩ := delay.mpr seconds
    exact ⟨⟨steps, seconds, window, writeBlank, showHistory, machines, output, label⟩, positive,
      wide, least⟩

/-! ### What a refusal says -/

/-- A fault says what is wrong with settings. -/
inductive Blames (entries : Entries) : SettingsFault → Prop where
  | missingKey {key : String} (required : key ∈ requiredNames)
      (absent : named? entries key = none) : Blames entries (.missingKey key)
  | wrongKind {key : String} {allowed : List Kind} {value : Value}
      (required : (key, allowed) ∈ settingKinds) (found : named? entries key = some value)
      (other : allowed.any value.kind.passesFor = false) :
      Blames entries (.wrongKind key allowed value.kind)
  | stepsNotPositive {value : Value} {number : Int}
      (found : named? entries "max_steps" = some value)
      (counts : value.wholeNumber? = some number) (least : number ≤ 0) :
      Blames entries .stepsNotPositive
  | windowNotPositive {value : Value} {number : Int}
      (found : named? entries "tape_window" = some value)
      (counts : value.wholeNumber? = some number) (least : number ≤ 0) :
      Blames entries .windowNotPositive
  | delayNegative {value : Value} (found : named? entries "step_delay" = some value)
      (below : value.isBelowZero = true) : Blames entries .delayNegative

/-- A whole number that is refused is there and is not positive. -/
theorem exists_of_wholeNumber_le {key : String} (whole : checkKind entries key [.integer] = .ok ())
    (least : wholeNumber entries key ≤ 0) :
    ∃ value number, named? entries key = some value ∧ value.wholeNumber? = some number ∧
      number ≤ 0 := by
  obtain ⟨value, found, passes⟩ := checkKind_eq_ok_iff.mp whole
  rw [wholeNumber, found] at least
  rcases passesFor_integer_iff.mp passes with ⟨number, rfl⟩ | ⟨truth, rfl⟩
  · exact ⟨_, number, found, rfl, least⟩
  · exact ⟨_, if truth then 1 else 0, found, rfl, least⟩

/-- A refusal says what is wrong. -/
theorem blames_of_check (refused : check entries = .error fault) : Blames entries fault := by
  rw [check] at refused
  cases kinds : settingKinds.forM fun setting => checkKind entries setting.1 setting.2 with
  | error other =>
      rw [kinds] at refused
      cases refused
      obtain ⟨⟨key, allowed⟩, member, failed⟩ := exists_of_forM_error kinds
      simp only [checkKind] at failed
      cases found : named? entries key with
      | none =>
          rw [found] at failed
          cases failed
          exact .missingKey (List.mem_map_of_mem member) found
      | some value =>
          simp only [found] at failed
          split at failed
          · cases failed
          · next other =>
            cases failed
            exact .wrongKind member found (Bool.not_eq_true _ ▸ other)
  | ok passed =>
      rw [kinds] at refused
      have whole {key : String} (member : (key, [Kind.integer]) ∈ settingKinds) :=
        forM_eq_ok_iff.mp kinds _ member
      rcases checkRanges_error_cases refused with ⟨rfl, least⟩ | ⟨rfl, least⟩ | ⟨rfl, below⟩
      · obtain ⟨value, number, found, counts, least⟩ :=
          exists_of_wholeNumber_le (whole (by decide)) least
        exact .stepsNotPositive found counts least
      · obtain ⟨value, number, found, counts, least⟩ :=
          exists_of_wholeNumber_le (whole (by decide)) least
        exact .windowNotPositive found counts least
      · cases found : named? entries "step_delay" with
        | none => simp [found] at below
        | some value => exact .delayNegative found (by simpa [found] using below)

/-! ### Judging -/

/-- How settings are judged by the check. -/
structure Judged (entries : Entries) : Prop where
  accepted_iff : check entries = .ok () ↔
    Complete PassesForPositive PassesForDuration entries
  /-- The settings that are accepted without being usable are the lax ones. -/
  usable_iff : Usable entries ↔ check entries = .ok () ∧ ¬Lax entries
  blamed : ∀ fault, check entries = .error fault → Blames entries fault

/-- The check judges all settings so. -/
theorem judged (entries : Entries) : Judged entries where
  accepted_iff := check_eq_ok_iff_complete
  usable_iff := by rw [usable_iff, check_eq_ok_iff_complete]
  blamed _ := blames_of_check

/-- The entries that the bytes of a file give, if they are a text that holds a collection of
entries and there is room for its depth. -/
def fileEntries (room : Nat) (path : String) (bytes : ByteArray) : Except Fault Entries := do
  let text ← (Text.decode bytes).mapError Fault.notUtf8
  let stored ← storedValue room path (String.ofList (Text.foldReturns text.toList))
  (storedEntries stored).mapError Fault.data

/-- A file that gives no entries is no text, its data is not of the form that was expected, or it
is nested too deep. -/
theorem fileEntries_error {room : Nat} {path : String} {bytes : ByteArray} {fault : Fault}
    (refused : fileEntries room path bytes = .error fault) :
    (∃ reason, fault = .notUtf8 reason) ∨ (∃ reason, fault = .data reason) ∨
      fault = .storage ⟨.nestedTooDeep, path⟩ := by
  unfold fileEntries at refused
  cases decoded : Text.decode bytes with
  | error reason =>
      rw [decoded] at refused
      cases refused
      exact .inl ⟨reason, rfl⟩
  | ok text =>
      simp only [decoded, Except.mapError, bind, Except.bind, storedValue] at refused
      right
      split at refused
      · next refusal =>
        split at refusal
        · next reason _ =>
          cases refusal
          cases refused
          cases reason with
          | malformed => exact .inl ⟨_, rfl⟩
          | numeralTooLong => exact .inl ⟨_, rfl⟩
          | nestedTooDeep => exact .inr rfl
        · cases refusal
      · split at refused
        · cases refused
          exact .inl ⟨_, rfl⟩
        · cases refused

/-- What is loaded from a file are its entries, laid over the defaults and then checked. -/
theorem run_load {path : String} {bytes : ByteArray} {workspace : Workspace}
    (leads : workspace.entry path = .ok (.file bytes)) (room : Nat) :
    (load (some path) room).run workspace =
      ((fileEntries room path bytes).bind fun entries =>
        (ofEntries (Keyed.merge defaultEntries entries)).mapError Fault.settings, workspace) := by
  have there : workspace.has path = true := by
    rw [Workspace.has, leads]
    rfl
  have text := Workspace.run_readText leads
  rw [load, run_bind_ok (run_get workspace), if_pos there, fileEntries]
  cases decoded : Text.decode bytes with
  | error reason =>
      rw [Workspace.textOf, decoded] at text
      rw [run_bind_error text]
      rfl
  | ok content =>
      rw [Workspace.textOf, decoded] at text
      rw [run_bind_ok text, run_liftExcept, ofText]
      simp only [Except.mapError, bind, Except.bind]
      cases storedValue room path (String.ofList (Text.foldReturns content.toList)) <;> rfl

/-- How a file of settings at a path is judged by loading it. -/
structure LoadJudged (room : Nat) (path : String) (bytes : ByteArray)
    (result : Except Fault Settings) : Prop where
  /-- Settings are loaded if they are the entries of the file laid over the defaults, and what they
  make up is complete. -/
  ok_iff : ∀ settings, result = .ok settings ↔ ∃ entries,
    fileEntries room path bytes = .ok entries ∧ settings.entries = Keyed.merge defaultEntries entries ∧
      Complete PassesForPositive PassesForDuration settings.entries
  /-- Otherwise the file gives no entries, or what they make up is to blame. -/
  refused : ∀ fault, result = .error fault →
    ((∃ reason, fault = .notUtf8 reason) ∨ (∃ reason, fault = .data reason) ∨
        fault = .storage ⟨.nestedTooDeep, path⟩) ∨
      ∃ entries reason, fileEntries room path bytes = .ok entries ∧ fault = .settings reason ∧
        Blames (Keyed.merge defaultEntries entries) reason

/-- The entries of a file, laid over the defaults and then checked, are judged so. -/
theorem loadJudged (room : Nat) (path : String) (bytes : ByteArray) :
    LoadJudged room path bytes ((fileEntries room path bytes).bind fun entries =>
      (ofEntries (Keyed.merge defaultEntries entries)).mapError Fault.settings) := by
  refine ⟨?_, ?_⟩
  · intro settings
    cases given : fileEntries room path bytes with
    | error fault => simp [Except.bind]
    | ok entries =>
        have checked := (judged (Keyed.merge defaultEntries entries)).accepted_iff
        simp only [Except.bind, Except.ok.injEq, exists_eq_left']
        constructor
        · intro loaded
          cases ended : check (Keyed.merge defaultEntries entries) with
          | error reason =>
              rw [ofEntries_eq_error ended] at loaded
              cases loaded
          | ok passed =>
              rw [ofEntries_eq_ok ended] at loaded
              cases loaded
              exact ⟨rfl, checked.mp ended⟩
        · rintro ⟨laid, complete⟩
          rw [laid] at complete
          rw [ofEntries_eq_ok (checked.mpr complete)]
          obtain ⟨settingsEntries, accepted⟩ := settings
          cases laid
          rfl
  · intro fault refused
    cases given : fileEntries room path bytes with
    | error reason =>
        rw [given] at refused
        cases refused
        exact .inl (fileEntries_error given)
    | ok entries =>
        rw [given] at refused
        simp only [Except.bind] at refused
        cases ended : check (Keyed.merge defaultEntries entries) with
        | error reason =>
            rw [ofEntries_eq_error ended] at refused
            cases refused
            exact .inr ⟨entries, reason, rfl, rfl, blames_of_check ended⟩
        | ok passed =>
            rw [ofEntries_eq_ok ended] at refused
            cases refused

/-- Settings are accepted exactly if all that must be there are, with a positive whole number or a
true truth value for the step cap and for the window, and with a delay that is a number not below
zero, a truth value, or not a number.  The usable settings are those that are accepted and have
neither truth values for numbers nor a delay that is not a number.  A refusal says what is wrong.
The settings in a file that there is room for are judged by the same rule, after its entries were
laid over the defaults. -/
theorem judged_load (entries : Entries) : Judged entries ∧
    ∀ room path bytes (workspace : Workspace), workspace.entry path = .ok (.file bytes) →
      ∃ result, (load (some path) room).run workspace = (result, workspace) ∧
        LoadJudged room path bytes result := by
  refine ⟨judged entries, fun room path bytes workspace leads => ?_⟩
  exact ⟨_, run_load leads room, loadJudged room path bytes⟩

/-- A file in which fields were saved gives them as its entries. -/
theorem fileEntries_indented {fields : Fields} (storable : Storable (.record fields)) {room : Nat}
    (shallow : (Value.record fields).depth ≤ room) (path : String) :
    fileEntries room path (Text.encode (Value.record fields).indented) =
      .ok (entriesOf fields) := by
  have stored : storedValue room path (String.ofList (Text.foldReturns
      (Value.record fields).indented.toList)) = .ok (.record fields) := by
    rw [Text.foldReturns_of_no_return (return_notMem_indented _), String.ofList_toList, storedValue,
      readWithin_indented storable.restorable, ifRoom_of_le shallow]
    rfl
  simp only [fileEntries, Text.decode_encode, Except.mapError, bind, Except.bind, stored,
    storedEntries]

/-- The step cap is switched on instead of given. -/
def switchedFields : Fields :=
  [("max_steps", .bool true)]

/-- The file is loaded, though its step cap is no number, and a delay below zero is refused. -/
theorem judged_load_switched :
    let workspace : Workspace :=
      { entries := [(["work", "config.json"],
          .file (Text.encode (Value.record switchedFields).indented))] }
    workspace.entry "config.json" =
        .ok (.file (Text.encode (Value.record switchedFields).indented)) ∧
      (∃ settings, (load (some "config.json")).run workspace = (.ok settings, workspace) ∧
        named? settings.entries "max_steps" = some (.bool true)) ∧
      check (Keyed.merge defaultEntries [(.text "step_delay", .integer (-1))]) ≠ .ok () := by
  intro workspace
  have located : workspace.locate "config.json" = .ok ["work", "config.json"] :=
    eq_ok_of_toOption (by decide +kernel)
  have leads : workspace.entry "config.json" =
      .ok (.file (Text.encode (Value.record switchedFields).indented)) := by
    rw [Workspace.entry, located]
    rfl
  obtain ⟨account, loads⟩ :=
    judged_load (Keyed.merge defaultEntries [(.text "step_delay", .integer (-1))])
  obtain ⟨result, loaded, judgement⟩ := loads usualRoom "config.json" _ workspace leads
  have accepted : check (Keyed.merge defaultEntries (entriesOf switchedFields)) = .ok () := rfl
  have storable : Storable (.record switchedFields) :=
    .record (by decide) (by simp [switchedFields, Storable.bool])
  have isLoaded := (judgement.ok_iff ⟨_, accepted⟩).mpr
    ⟨_, fileEntries_indented storable (by decide) _, rfl, check_eq_ok_iff_complete.mp accepted⟩
  rw [isLoaded] at loaded
  refine ⟨leads, ⟨_, loaded, rfl⟩, fun passes => ?_⟩
  obtain ⟨value, found, duration⟩ := (account.accepted_iff.mp passes).stepDelay
  obtain rfl : Value.integer (-1) = value := Option.some.inj found
  have least := (passesForDuration_iff.mp duration).2
  exact absurd least (by decide)

/-- A truth value is accepted for the step cap, and so is a delay that is not a number, though
neither leaves the settings usable. -/
theorem lax_accepted :
    (check (Keyed.merge defaultEntries [(.text "max_steps", .bool true)]) = .ok () ∧
      ¬Usable (Keyed.merge defaultEntries [(.text "max_steps", .bool true)])) ∧
    (check (Keyed.merge defaultEntries [(.text "step_delay", .float .nan)]) = .ok () ∧
      ¬Usable (Keyed.merge defaultEntries [(.text "step_delay", .float .nan)])) := by
  refine ⟨⟨rfl, fun usable => ?_⟩, rfl, fun usable => ?_⟩
  · exact (usable_iff.mp usable).2 (.inl rfl)
  · exact (usable_iff.mp usable).2 (.inr (.inr (.inr rfl)))

end Settings

end TapeLab
