import TapeLab.Proofs.Workspace.Reading

/-!
# What files hold

Nothing that is done to a workspace but making directories changes which directories there are
(`SameDirectories`).  Writing that succeeds leaves its file with what was asked for
(`Rewritten.shows_of_ok`), so texts that are added one by one are added as one (`grown_grown`,
`held?_of_forM_append`).
-/

namespace TapeLab.Workspace

open Fallible

variable {path other : String} {workspace before between after : Workspace}

/-- What the file at the place of a path holds, if there is one. -/
def held? (path : String) (workspace : Workspace) : Option ByteArray :=
  match workspace.entryAt? (workspace.placeOf path) with
  | some (.file bytes) => some bytes
  | _ => none

/-- What a file holds after a text was added to it; no file is made for no text. -/
def grown (found : Option ByteArray) (text : String) : Option ByteArray :=
  if text = "" then found else some (found.getD ByteArray.empty ++ Text.encode text)

/-- What a file holds stands at its place. -/
theorem held?_eq_some_iff {bytes : ByteArray} : workspace.held? path = some bytes ↔
    workspace.entryAt? (workspace.placeOf path) = some (.file bytes) := by
  unfold held?
  split
  · next found stands => simp [stands]
  · next absent => simpa using absent bytes

/-- What a path shows of a file is what the file holds. -/
theorem Shows.held?_eq {found : Option ByteArray} (shows : workspace.Shows path found) :
    workspace.held? path = found := by
  cases found with
  | some bytes => exact held?_eq_some_iff.mpr shows.2
  | none =>
      rw [Option.eq_none_iff_forall_ne_some]
      exact fun bytes holds => shows bytes (held?_eq_some_iff.mp holds)

/-- The place of a path contains what the file there holds. -/
theorem contents_placeOf (path : String) (workspace : Workspace) :
    workspace.contents (workspace.placeOf path) =
      (workspace.held? path).getD ByteArray.empty := by
  simp only [contents, held?]
  cases workspace.entryAt? (workspace.placeOf path) with
  | none => rfl
  | some entry => cases entry <;> rfl

/-- A file elsewhere holds what it held. -/
theorem ChangesOnly.held?_eq {paths : List String} (changes : ChangesOnly paths before after)
    (apart : ∀ other ∈ paths, before.placeOf path ≠ before.placeOf other) :
    after.held? path = before.held? path := by
  ext bytes
  rw [held?_eq_some_iff, held?_eq_some_iff, placeOf_congr changes.current]
  exact changes.elsewhere _ bytes apart

@[simp]
theorem grown_empty (found : Option ByteArray) : grown found "" = found :=
  if_pos rfl

/-- A file that is there grows by every text. -/
theorem grown_some (bytes : ByteArray) (text : String) :
    grown (some bytes) text = some (bytes ++ Text.encode text) := by
  by_cases nothing : text = ""
  · have empty : Text.encode "" = ByteArray.empty := rfl
    simp [nothing, empty]
  · exact if_neg nothing

/-- Texts that are added one after the other are added as one. -/
theorem grown_grown (found : Option ByteArray) (first second : String) :
    grown (grown found first) second = grown found (first ++ second) := by
  by_cases nothing : first = ""
  · simp [nothing]
  · have visible : first ++ second ≠ "" := by simp [nothing]
    have begun : grown found first = some (found.getD ByteArray.empty ++ Text.encode first) :=
      if_neg nothing
    rw [begun, grown_some, grown, if_neg visible, Text.encode_append,
      ByteArray.append_assoc]

/-- Paths begin in the same directory, and there are the same directories. -/
structure SameDirectories (before after : Workspace) : Prop where
  current : after.current = before.current
  directories : ∀ place, after.entryAt? place = some .directory ↔
    before.entryAt? place = some .directory

namespace SameDirectories

theorem refl (workspace : Workspace) : SameDirectories workspace workspace where
  current := rfl
  directories := fun _ => Iff.rfl

theorem symm (same : SameDirectories before after) : SameDirectories after before where
  current := same.current.symm
  directories := fun place => (same.directories place).symm

theorem trans (first : SameDirectories before between) (second : SameDirectories between after) :
    SameDirectories before after where
  current := second.current.trans first.current
  directories := fun place => (second.directories place).trans (first.directories place)

instance : IsPreorder Workspace SameDirectories where
  refl := refl
  trans := fun _ _ _ => trans

/-- Only refusals to come were used up. -/
theorem of_entries (current : after.current = before.current)
    (entries : after.entries = before.entries) : SameDirectories before after where
  current := current
  directories := fun place => by simp only [entryAt?, current, entries]

end SameDirectories

/-- Writing a file where no directory stands makes and removes no directory. -/
theorem sameDirectories_holding {bytes : ByteArray}
    (free : workspace.entryAt? (workspace.placeOf path) ≠ some .directory) :
    SameDirectories workspace (workspace.holding path bytes) where
  current := rfl
  directories := by
    intro place
    rw [entryAt?_holding free]
    split
    · next same => simp [← same, free]
    · rfl

/-- However writing a file ends, there are the same directories. -/
theorem Rewritten.sameDirectories {made : ByteArray → ByteArray} {result : Except Fault Unit}
    (rewritten : Rewritten path made before result after) : SameDirectories before after := by
  cases rewritten with
  | done refusals located free => exact (sameDirectories_holding free).trans (.of_entries rfl rfl)
  | failed fault refusals => exact SameDirectories.of_entries rfl rfl

theorem rewrite_sameDirectories (path : String) (made : ByteArray → ByteArray) :
    Relates SameDirectories (rewrite path made) :=
  fun workspace => (rewrite_outcome path made workspace).sameDirectories

/-- A file that was written shows what was asked for. -/
theorem Rewritten.shows_of_ok {made : ByteArray → ByteArray}
    (rewritten : Rewritten path made before (.ok ()) after) :
    after.Shows path (some (made ((before.held? path).getD ByteArray.empty))) := by
  have changes := rewritten.changesOnly
  rw [← contents_placeOf]
  cases rewritten with
  | done refusals located free =>
      refine ⟨changes.locate_eq_ok located, ?_⟩
      exact (entryAt?_holding free _).trans (if_pos rfl)

/-- After a write that succeeds its path shows what was asked for. -/
theorem shows_of_rewrite {made : ByteArray → ByteArray}
    (succeeds : ((rewrite path made).run workspace).1 = .ok ()) :
    ((rewrite path made).run workspace).2.Shows path
      (some (made ((workspace.held? path).getD ByteArray.empty))) := by
  have rewritten := rewrite_outcome path made workspace
  rw [succeeds] at rewritten
  exact rewritten.shows_of_ok

/-- A file to which a text was added has grown by it. -/
theorem held?_of_append {text : String} (visible : text ≠ "")
    (succeeds : ((append path text).run workspace).1 = .ok ()) :
    ((append path text).run workspace).2.held? path = grown (workspace.held? path) text := by
  rw [grown, if_neg visible]
  exact (shows_of_rewrite succeeds).held?_eq

/-- A file to which texts were added one by one has grown by all of them. -/
theorem held?_of_forM_append {α : Type} {items : List α} {text : α → String}
    (visible : ∀ item, text item ≠ "")
    (succeeds : ((items.forM fun item => append path (text item)).run workspace).1 = .ok ()) :
    ((items.forM fun item => append path (text item)).run workspace).2.held? path =
      grown (workspace.held? path) (String.join (items.map text)) := by
  induction items generalizing workspace with
  | nil => exact (grown_empty _).symm
  | cons item rest inductionHypothesis =>
      have unfolded : (item :: rest).forM (fun item => append path (text item)) = (do
          append path (text item)
          rest.forM fun item => append path (text item)) := rfl
      rw [unfolded] at succeeds ⊢
      obtain ⟨_, between, added, later⟩ := exists_of_bind_ok succeeds
      have first : between.held? path = grown (workspace.held? path) (text item) := by
        have adds := @held?_of_append path workspace _ (visible item)
        rw [added] at adds
        exact adds rfl
      rw [later] at succeeds ⊢
      rw [inductionHypothesis succeeds, first, grown_grown, List.map_cons, String.join_cons]

end TapeLab.Workspace
