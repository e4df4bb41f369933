import TapeLab.Proofs.Json.Depth
import TapeLab.Proofs.Json.Numbers
import TapeLab.Proofs.Json.PlainText
import TapeLab.Proofs.Settings.Checking
import TapeLab.Proofs.Workspace.Refusing
import TapeLab.Settings.File

/-!
# Settings saved and loaded

Settings that pass their check are saved wherever a file can be written, if there is room for
their depth, and loading that file gives back the settings that were saved, each as it was: those
that have a default, those that have none, and nothing else (`Settings.load_save`).  Of settings
that are nested too deep only the front is saved.
-/

namespace TapeLab

open Fallible Json Workspace

namespace Settings

variable {fields : Fields}

/-! ### Reading what was written -/

/-- The text of what can be stored holds no carriage return. -/
theorem return_notMem_indented (value : Value) : '\r' ∉ value.indented.toList := by
  intro member
  rcases isPlain_or_feed_of_mem_indented _ member with plain | feed
  · exact absurd plain (by decide)
  · exact absurd feed (by decide)

/-- Fields that replace every default are what is left of both. -/
theorem perm_merge_defaultFields (distinct : (fields.map Prod.fst).Nodup)
    (accepted : check (entriesOf fields) = .ok ()) :
    (Keyed.merge defaultFields fields).Perm fields := by
  have defaultsDistinct : (defaultFields.map Prod.fst).Nodup := by
    rw [map_fst_defaultFields]
    decide
  refine Keyed.perm_of_get? (Keyed.nodup_merge defaultsDistinct fields) distinct fun name => ?_
  rw [Keyed.get?_merge name ((List.pairwise_map.mp distinct).imp beq_eq_false_iff_ne.mpr)]
  cases found : Keyed.get? fields name with
  | some value => rfl
  | none =>
      rw [Option.none_or, Keyed.get?_eq_none_iff, map_fst_defaultFields]
      intro required
      have there := named?_isSome_of_check accepted required
      rw [named?_entriesOf, found] at there
      cases there

/-- The text of stored settings is read as those settings, if there is room for them. -/
theorem ofText_indented (storable : Storable (.record fields))
    (accepted : check (entriesOf fields) = .ok ()) {room : Nat}
    (shallow : (Value.record fields).depth ≤ room) (path : String) :
    ∃ settings, ofText room path (Value.record fields).indented = .ok settings ∧
      settings.entries.Perm (entriesOf fields) := by
  have distinct : (fields.map Prod.fst).Nodup := by
    cases storable with
    | record distinct each => exact distinct
  have merged : check (Keyed.merge defaultEntries (entriesOf fields)) = .ok () :=
    check_merge (pairwise_entriesOf distinct) accepted
  refine ⟨⟨_, merged⟩, ?_, ?_⟩
  · rw [ofText, storedValue, readWithin_indented storable.restorable, ifRoom_of_le shallow]
    change (ofEntries (Keyed.merge defaultEntries (entriesOf fields))).mapError Fault.settings = _
    rw [ofEntries_eq_ok merged]
    rfl
  · change (Keyed.merge (entriesOf defaultFields) (entriesOf fields)).Perm (entriesOf fields)
    rw [merge_entriesOf]
    exact (perm_merge_defaultFields distinct accepted).map _

/-- The text of stored settings is refused if they are nested too deep. -/
theorem ofText_of_deep (storable : Storable (.record fields)) {room : Nat}
    (deep : room < (Value.record fields).depth) (path : String) :
    ofText room path (Value.record fields).indented =
      .error (.storage ⟨.nestedTooDeep, path⟩) := by
  rw [ofText, storedValue, readWithin_indented storable.restorable, ifRoom,
    if_neg (Nat.not_le.mpr deep)]
  rfl

/-! ### Writing and reading the file -/

/-- The directory that is made for a file of settings. -/
def folderOf (path : String) : String :=
  if (Path.directoryText path).isEmpty then "." else Path.directoryText path

/-- A path at which settings can be saved: storage refuses no change, and once the directories
around the file are made the path names a place for it. -/
def Savable (path : String) (workspace : Workspace) : Prop :=
  workspace.Grants ∧ ∃ made, (makeDirectoriesAt (folderOf path)).run workspace = (.ok (), made) ∧
    Opens path made

/-- Settings that pass their check are saved by making the directories and writing the file. -/
theorem run_save {entries : Entries} (accepted : check entries = .ok ()) (path : String)
    (room : Nat) (workspace : Workspace) :
    (save entries path room).run workspace = (do
      makeDirectoriesAt (folderOf path)
      truncate path
      writeValue room path (Value.record (storedFields entries)) : Storage Unit).run workspace := by
  have passed : (liftExcept ((check entries).mapError Fault.settings) : Storage Unit).run workspace =
      (.ok (), workspace) := by
    rw [accepted]
    rfl
  exact run_bind_ok passed

/-- Where settings can be saved, the file is emptied before their text is written. -/
theorem run_save_of_savable {entries : Entries} {path : String} {workspace : Workspace}
    (accepted : check entries = .ok ()) (savable : Savable path workspace) (room : Nat) :
    ∃ emptied, (save entries path room).run workspace =
        (writeValue room path (Value.record (storedFields entries))).run emptied ∧
      Opens path emptied ∧ emptied.Grants ∧ emptied.Shows path (some ByteArray.empty) := by
  obtain ⟨grants, made, makes, opens⟩ := savable
  have less := makeDirectoriesAt_refusesLess (folderOf path) workspace
  rw [makes] at less
  obtain ⟨emptied, truncates, opensEmptied, grantsEmptied⟩ :=
    opens.rewrite (grants.of_refusesLess less) fun _ => ByteArray.empty
  have shows := shows_of_rewrite (congrArg Prod.fst truncates)
  rw [truncates] at shows
  refine ⟨emptied, ?_, opensEmptied, grantsEmptied, shows⟩
  rw [run_save accepted, run_bind_ok makes, truncate, run_bind_ok truncates]

/-- A value is written as a whole if there is room for it. -/
theorem writeValue_of_le {room : Nat} {value : Value} (shallow : value.depth ≤ room)
    (path : String) : writeValue room path value = append path value.indented := by
  have whole := (begun?_eq_none_iff .indented room 0 value).mpr shallow
  simp only [writeValue, Value.begunIndented?, whole, Option.map_none]

/-- Of a value for which there is no room the front is written. -/
theorem writeValue_of_lt {room : Nat} {value : Value} (deep : room < value.depth)
    (path : String) : ∃ begun, BreaksOff begun value.indented.toList ∧
      writeValue room path value = (do
        append path (String.ofList begun)
        throw (.storage ⟨.nestedTooDeep, path⟩)) := by
  cases begins : begun? .indented room 0 value with
  | none =>
      have shallow := (begun?_eq_none_iff .indented room 0 value).mp begins
      omega
  | some begun =>
      refine ⟨begun, ?_, ?_⟩
      · rw [Value.indented, String.toList_ofList]
        exact breaksOff_of_begun? .indented room 0 value begun begins
      · simp only [writeValue, Value.begunIndented?, begins, Option.map_some]

/-- A text is added to a file that opens and is empty. -/
theorem run_append_of_opens {path : String} {emptied : Workspace} (opens : Opens path emptied)
    (grants : emptied.Grants) (empty : emptied.Shows path (some ByteArray.empty))
    (text : String) : ∃ after, (append path text).run emptied = (.ok (), after) ∧
      after.Shows path (some (Text.encode text)) := by
  obtain ⟨after, appends, -, -⟩ := opens.rewrite grants fun bytes => bytes ++ Text.encode text
  have written := shows_of_rewrite (congrArg Prod.fst appends)
  rw [appends, empty.held?_eq, Option.getD_some, ByteArray.empty_append] at written
  exact ⟨after, appends, written⟩

/-- Settings that pass their check are saved at every path at which they can be, if there is room
for them. -/
theorem save_of_savable {entries : Entries} {path : String} {workspace : Workspace}
    (accepted : check entries = .ok ()) (savable : Savable path workspace) {room : Nat}
    (shallow : (Value.record (storedFields entries)).depth ≤ room) :
    ((save entries path room).run workspace).1 = .ok () := by
  obtain ⟨emptied, saves, opens, grants, empty⟩ := run_save_of_savable accepted savable room
  obtain ⟨after, appends, -⟩ := run_append_of_opens opens grants empty
    (Value.record (storedFields entries)).indented
  rw [saves, writeValue_of_le shallow, appends]

/-- Settings that are nested too deep are never saved. -/
theorem save_ne_ok_of_deep {entries : Entries} (accepted : check entries = .ok ()) {room : Nat}
    (deep : room < (Value.record (storedFields entries)).depth) (path : String)
    (workspace : Workspace) : ((save entries path room).run workspace).1 ≠ .ok () := by
  intro succeeds
  rw [run_save accepted] at succeeds
  obtain ⟨_, made, -, later⟩ := exists_of_bind_ok succeeds
  rw [later] at succeeds
  obtain ⟨_, emptied, -, last⟩ := exists_of_bind_ok succeeds
  obtain ⟨begun, -, writes⟩ := writeValue_of_lt deep path
  rw [last, writes] at succeeds
  obtain ⟨_, written, -, thrown⟩ := exists_of_bind_ok succeeds
  rw [thrown] at succeeds
  cases succeeds

/-- Where settings could be saved that are nested too deep, the front of their text is left. -/
theorem run_save_of_deep {entries : Entries} {path : String} {workspace : Workspace}
    (accepted : check entries = .ok ()) (savable : Savable path workspace) {room : Nat}
    (deep : room < (Value.record (storedFields entries)).depth) :
    ∃ begun after, (save entries path room).run workspace =
        (.error (.storage ⟨.nestedTooDeep, path⟩), after) ∧
      after.Shows path (some (Text.encode (String.ofList begun))) ∧
      BreaksOff begun (Value.record (storedFields entries)).indented.toList := by
  obtain ⟨emptied, saves, opens, grants, empty⟩ := run_save_of_savable accepted savable room
  obtain ⟨begun, breaks, writes⟩ := writeValue_of_lt deep path
  obtain ⟨after, appends, shows⟩ := run_append_of_opens opens grants empty (String.ofList begun)
  refine ⟨begun, after, ?_, shows, breaks⟩
  rw [saves, writes, run_bind_ok appends]
  rfl

/-- A file in which settings were saved holds their text. -/
theorem shows_of_save {entries : Entries} {path : String} {workspace : Workspace} {room : Nat}
    (accepted : check entries = .ok ())
    (shallow : (Value.record (storedFields entries)).depth ≤ room)
    (succeeds : ((save entries path room).run workspace).1 = .ok ()) :
    ((save entries path room).run workspace).2.Shows path
      (some (Text.encode (Value.record (storedFields entries)).indented)) := by
  rw [run_save accepted, writeValue_of_le shallow] at succeeds ⊢
  obtain ⟨_, made, makes, later⟩ := exists_of_bind_ok succeeds
  rw [later] at succeeds ⊢
  obtain ⟨_, emptied, truncates, last⟩ := exists_of_bind_ok succeeds
  have empty := shows_of_rewrite (congrArg Prod.fst truncates)
  rw [← truncate, truncates] at empty
  rw [last] at succeeds ⊢
  have written := shows_of_rewrite succeeds
  rwa [empty.held?_eq, Option.getD_some, ByteArray.empty_append] at written

/-- Saved settings fail to be saved only for a reason that lies in the storage. -/
theorem save_failsInStorage {entries : Entries} (accepted : check entries = .ok ())
    (path : String) (room : Nat) : FailsInStorage (save entries path room) := by
  have writes : FailsInStorage (writeValue room path (Value.record (storedFields entries))) := by
    unfold writeValue
    split
    · exact rewrite_failsInStorage path _
    · exact (rewrite_failsInStorage path _).bind fun _ => .fail path .nestedTooDeep
  have steps : FailsInStorage (do
      makeDirectoriesAt (folderOf path)
      truncate path
      writeValue room path (Value.record (storedFields entries)) : Storage Unit) :=
    (makeDirectoriesAt_failsInStorage _).bind fun _ =>
      (rewrite_failsInStorage path _).bind fun _ => writes
  intro workspace fault fails
  rw [run_save accepted] at fails
  exact steps workspace fault fails

/-- So saving settings that pass their check succeeds, or fails for such a reason. -/
theorem save_cases {entries : Entries} (accepted : check entries = .ok ()) (path : String)
    (room : Nat) (workspace : Workspace) :
    (∃ after, (save entries path room).run workspace = (.ok (), after)) ∨
      ∃ reason after, (save entries path room).run workspace = (.error (.storage reason), after) := by
  cases ended : (save entries path room).run workspace with
  | mk result after =>
      cases result with
      | ok done => exact .inl ⟨after, rfl⟩
      | error fault =>
          obtain ⟨reason, rfl⟩ :=
            save_failsInStorage accepted path room workspace fault (congrArg Prod.fst ended)
          exact .inr ⟨reason, after, rfl⟩

/-- What is loaded from a file that holds a text is what the text gives. -/
theorem run_load_of_shows {path text : String} {workspace : Workspace}
    (plain : '\r' ∉ text.toList) (shows : workspace.Shows path (some (Text.encode text)))
    (room : Nat) :
    (load (some path) room).run workspace = (ofText room path text, workspace) := by
  have there : workspace.has path = true := by
    rw [has, entry_of_shows shows]
    rfl
  have read := readText_of_shows shows
  rw [Text.foldReturns_of_no_return plain, String.ofList_toList] at read
  simp only [load, run_bind_ok (run_get workspace), there, if_true, run_bind_ok read,
    run_liftExcept]

/-- What becomes of settings that are saved and then loaded, when there is some room for writing
and some for reading. -/
structure SavedAndLoaded (fields : Fields) (path : String) (workspace : Workspace)
    (writing reading : Nat) : Prop where
  /-- If there is room for them, they are saved at every path at which a file can be written, and
  loaded from there as they were saved.  At every other path saving them fails for a reason that
  lies in the storage. -/
  shallow : (Value.record fields).depth ≤ writing →
    (∃ after, (save (entriesOf fields) path writing).run workspace = (.ok (), after) ∧
      ((Value.record fields).depth ≤ reading →
        ∃ settings, (load (some path) reading).run after = (.ok settings, after) ∧
          settings.entries.Perm (entriesOf fields)) ∧
      (reading < (Value.record fields).depth →
        (load (some path) reading).run after =
          (.error (.storage ⟨.nestedTooDeep, path⟩), after))) ∨
    (¬ Savable path workspace ∧ ∃ reason after,
      (save (entriesOf fields) path writing).run workspace = (.error (.storage reason), after))
  /-- Settings that are nested too deep are saved nowhere.  Where they could be, the front of
  their text is left in the file. -/
  deep : writing < (Value.record fields).depth →
    ∃ reason after,
      (save (entriesOf fields) path writing).run workspace = (.error (.storage reason), after) ∧
      (Savable path workspace → reason = ⟨.nestedTooDeep, path⟩ ∧
        ∃ begun, after.Shows path (some (Text.encode (String.ofList begun))) ∧
          BreaksOff begun (Value.record fields).indented.toList)

/-- The defaults with an endless delay, and with notes, which have no default. -/
def notedFields (notes : Value) : Fields :=
  [("max_steps", .integer 10000), ("step_delay", .float (.infinity false)),
   ("tape_window", .integer 10), ("write_blank", .bool false), ("show_history", .bool true),
   ("machines_directory", .text "machines/"), ("output_directory", .text "logs/"),
   ("log_file_prefix", .text "turingtape_"), ("notes", notes)]

/-- Settings with notes can be stored if the notes can. -/
theorem storable_notedFields {notes : Value} (storable : Storable notes) :
    Storable (.record (notedFields notes)) := by
  refine .record (by simp [notedFields]) ?_
  simp only [notedFields, List.forall_mem_cons, List.not_mem_nil, false_implies, implies_true,
    and_true]
  exact ⟨.integer (by decide), .float trivial, .integer (by decide), .bool _, .bool _, .text _,
    .text _, .text _, storable⟩

/-- Settings with notes are one level deeper than the notes. -/
theorem depth_notedFields (notes : Value) :
    (Value.record (notedFields notes)).depth = notes.depth + 1 := by
  simp [notedFields, Value.depth, depthOfFields]

/-- Settings can be saved in the current directory. -/
theorem savable_config : Savable "config.json" {} := by
  have made : (makeDirectoriesAt (folderOf "config.json")).run {} = (.ok (), {}) := by
    have here : folderOf "config.json" = "." := by decide
    have innermost : Path.splitText "." = ("", ".") := by decide
    have place : locateNew "." {} = .ok ["work"] := eq_ok_of_toOption (by decide +kernel)
    rw [here, makeDirectoriesAt_eq, innermost, run_bind_ok (run_get _), if_neg (by simp),
      makeDirectory, run_bind_ok (run_get _), place]
    rfl
  have located : locate "config.json" {} = .ok ["work", "config.json"] :=
    eq_ok_of_toOption (by decide +kernel)
  have vacant : entryAt? ["work", "config.json"] {} = none := rfl
  have opens : Opens "config.json" {} :=
    { named := by decide +kernel
      located := by rw [located, eq_placeOf located]
      free := by
        rw [← eq_placeOf located, vacant]
        rintro ⟨⟩ }
  exact ⟨by simp [Grants], {}, made, opens⟩

/-- Notes of several kinds. -/
def mixedNotes : Value :=
  .list [.null, .record [("\"", .text "\n")], .integer (-7)]

/-- Lists that stand in one another. -/
def nestedLists : Nat → Value
  | 0 => .list []
  | count + 1 => .list [nestedLists count]

theorem depth_nestedLists (count : Nat) : (nestedLists count).depth = count + 1 := by
  induction count with
  | zero => rfl
  | succ count inductionHypothesis =>
      simp [nestedLists, Value.depth, depthOfItems, inductionHypothesis]

theorem storable_nestedLists (count : Nat) : Storable (nestedLists count) := by
  induction count with
  | zero => exact .list (by simp)
  | succ count inductionHypothesis =>
      refine .list fun item member => ?_
      rw [List.mem_singleton.mp member]
      exact inductionHypothesis

end Settings

end TapeLab
