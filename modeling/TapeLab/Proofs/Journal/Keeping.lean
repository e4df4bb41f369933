import TapeLab.Proofs.Journal.Adding
import TapeLab.Proofs.Journal.Files
import TapeLab.Proofs.Json.Numbers
import TapeLab.Proofs.Json.PlainText
import TapeLab.Proofs.Text.Lines
import TapeLab.Proofs.Workspace.Refusing

/-!
# What a journal keeps

Every call adds to each file of a journal the lines of the entries that it sends there, and
nothing else (`Sends`).  A line is one line whatever its entry holds, and it is read back as that
entry.  So the files of a journal that was begun afresh hold what was sent to them, entry by
entry (`entriesIn?_keep`).
-/

namespace TapeLab.Journal

open Fallible Json Workspace

/-! ### Entries and lines -/

/-- The text of entries, one a line. -/
def linesOf (entries : List Value) : String :=
  String.join (entries.map line)

/-- The entries of a text that holds one in every line. -/
def entriesOf? (text : String) : Option (List Value) :=
  (Text.lines text.toList).mapM fun line => (Json.read line).toOption

/-- What a file holds; a file that is not there holds nothing. -/
def bytesIn (path : String) (workspace : Workspace) : ByteArray :=
  (workspace.held? path).getD ByteArray.empty

/-- The entries of a file that holds one in every line. -/
def entriesIn? (path : String) (workspace : Workspace) : Option (List Value) :=
  (Text.decode (bytesIn path workspace)).toOption.bind entriesOf?

/-- Lines after lines. -/
theorem linesOf_append (first second : List Value) :
    linesOf (first ++ second) = linesOf first ++ linesOf second := by
  simp only [linesOf, List.map_append, String.join_append]

/-- The line of an entry is a line under every way of cutting a text into lines. -/
theorem unbroken_compact (entry : Value) : Text.Unbroken entry.compact.toList := by
  intro c member
  obtain ⟨least, most⟩ := isPlain_of_mem_compact entry member
  rw [← Bool.not_eq_true]
  intro breaks
  simp only [Text.isLineBreak, Bool.or_eq_true, beq_iff_eq] at breaks
  rcases breaks with ((((((((rfl | rfl) | rfl) | rfl) | rfl) | rfl) | rfl) | rfl) | rfl) | rfl <;>
    simp at least most

/-- The entries of a text are those that it was made of. -/
theorem entriesOf?_linesOf {entries : List Value} (storable : ∀ entry ∈ entries, Storable entry) :
    entriesOf? (linesOf entries) = some entries := by
  have feed : "\n".toList = ['\n'] := rfl
  have text : (linesOf entries).toList =
      (entries.map fun entry => entry.compact.toList).flatMap fun line => line ++ ['\n'] := by
    simp only [linesOf, line, String.toList_join, List.flatMap_map, String.toList_append, feed]
  have unbroken : ∀ line ∈ entries.map (fun entry => entry.compact.toList), Text.Unbroken line := by
    intro line member
    obtain ⟨entry, -, rfl⟩ := List.mem_map.mp member
    exact unbroken_compact entry
  rw [entriesOf?, text, Text.lines_flatMap unbroken]
  clear text unbroken
  induction entries with
  | nil => rfl
  | cons entry rest inductionHypothesis =>
      have here := read_compact (storable entry List.mem_cons_self).restorable
      have later := inductionHypothesis fun other member =>
        storable other (List.mem_cons_of_mem entry member)
      rw [List.map_cons, List.mapM_cons, here, later]
      rfl

/-! ### What calls send -/

/-- A call sends nothing but what it was given. -/
theorem Call.mem_entries_of_mem_sent {call : Call} {file : File} {entry : Value}
    (sent : entry ∈ call.sent file) : entry ∈ call.entries := by
  cases file with
  | main =>
      cases call with
      | log other => exact sent
      | logBatch entries => exact sent
      | logStatus status entries => cases sent
      | logByStatus entries => cases sent
  | status status =>
      cases call with
      | log other => cases sent
      | logBatch entries => cases sent
      | logStatus other entries =>
          simp only [Call.sent] at sent
          split at sent
          · exact sent
          · cases sent
      | logByStatus entries => exact List.mem_of_mem_filter sent

section Sends

variable {journal : Journal} {workspace before between after : Workspace}

/-- The files of a journal are at different places. -/
def Apart (journal : Journal) (workspace : Workspace) : Prop :=
  Function.Injective fun file => workspace.placeOf (journal.path file)

/-- Where the files are depends on the current directory alone. -/
theorem Apart.congr (apart : journal.Apart before) (current : after.current = before.current) :
    journal.Apart after := by
  intro first second same
  simp only [placeOf_congr current] at same
  exact apart same

/-- The files of a journal of a day are at different places if the main one is apart from the
others. -/
theorem apart_of_main {moment : Moment} (dated : journal.day = moment.date)
    (apart : ∀ status, workspace.placeOf journal.mainFile ≠
      workspace.placeOf (journal.statusFile status)) : journal.Apart workspace := by
  intro first second same
  cases first with
  | main =>
      cases second with
      | main => rfl
      | status status => exact absurd same (apart status)
  | status status =>
      cases second with
      | main => exact absurd same.symm (apart status)
      | status other => exact congrArg File.status (placeOf_statusFile_injective dated _ same)

/-- From one workspace to another each file of a journal grew by the lines of the entries that
were sent to it. -/
structure Sends (journal : Journal) (sent : File → List Value) (before after : Workspace) :
    Prop where
  current : after.current = before.current
  bytes : ∀ file, bytesIn (journal.path file) after =
    bytesIn (journal.path file) before ++ Text.encode (linesOf (sent file))

theorem Sends.refl (journal : Journal) (workspace : Workspace) :
    journal.Sends (fun _ => []) workspace workspace where
  current := rfl
  bytes := fun _ => (ByteArray.append_empty).symm

theorem Sends.congr {sent more : File → List Value} (sends : journal.Sends sent before after)
    (same : ∀ file, sent file = more file) : journal.Sends more before after := by
  obtain rfl : sent = more := funext same
  exact sends

theorem Sends.trans {sent more : File → List Value} (first : journal.Sends sent before between)
    (second : journal.Sends more between after) :
    journal.Sends (fun file => sent file ++ more file) before after where
  current := second.current.trans first.current
  bytes := fun file => by
    rw [second.bytes, first.bytes, ByteArray.append_assoc, ← Text.encode_append, linesOf_append]

/-- Adding entries to a file sends them there. -/
theorem sends_of_addAll {entries : List Value} (file : File) (apart : journal.Apart workspace)
    (succeeds : ((addAll (journal.path file) entries).run workspace).1 = .ok ()) :
    journal.Sends (fun other => if other = file then entries else []) workspace
      ((addAll (journal.path file) entries).run workspace).2 := by
  have changes := addAll_changesOnly (journal.path file) entries workspace
  refine ⟨changes.current, fun other => ?_⟩
  by_cases same : other = file
  · subst same
    rw [bytesIn, held?_of_addAll succeeds, if_pos rfl]
    rfl
  · have elsewhere : ∀ path ∈ [journal.path file],
        workspace.placeOf (journal.path other) ≠ workspace.placeOf path := by
      intro path member placed
      rw [List.mem_singleton.mp member] at placed
      exact same (apart placed)
    rw [bytesIn, changes.held?_eq elsewhere, if_neg same]
    exact (ByteArray.append_empty).symm

/-- What is done item by item sends what is sent for each item, in order. -/
theorem sends_forM {α : Type} {items : List α} {operation : α → Storage Unit}
    {sent : α → File → List Value}
    (each : ∀ item ∈ items, ∀ workspace, journal.Apart workspace →
      ((operation item).run workspace).1 = .ok () →
      journal.Sends (sent item) workspace ((operation item).run workspace).2)
    (apart : journal.Apart workspace)
    (succeeds : ((items.forM operation).run workspace).1 = .ok ()) :
    journal.Sends (fun file => items.flatMap fun item => sent item file) workspace
      ((items.forM operation).run workspace).2 := by
  induction items generalizing workspace with
  | nil => exact .refl journal workspace
  | cons item rest inductionHypothesis =>
      obtain ⟨_, between, done, later⟩ := exists_of_bind_ok
        (show ((operation item >>= fun _ => rest.forM operation).run workspace).1 = .ok () from
          succeeds)
      have unfolded : ((item :: rest).forM operation).run workspace =
          (rest.forM operation).run between := later
      rw [unfolded] at succeeds ⊢
      have first := each item List.mem_cons_self workspace apart (by rw [done])
      rw [done] at first
      exact first.trans (inductionHypothesis
        (fun other member => each other (List.mem_cons_of_mem item member))
        (apart.congr first.current) succeeds)

/-- Routing entries sends each to the file for the status that it names. -/
theorem sends_of_routeAll {entries : List Value} (apart : journal.Apart workspace)
    (succeeds : ((journal.routeAll entries).run workspace).1 = .ok ()) :
    journal.Sends (fun file => (Call.logByStatus entries).sent file) workspace
      ((journal.routeAll entries).run workspace).2 := by
  have selected : ∀ status, entries.filter (hasStatus status) =
      entries.filter fun entry => Tells status entry := fun status =>
    List.filter_congr fun entry _ => Bool.eq_iff_iff.mpr (hasStatus_iff.trans decide_eq_true_iff.symm)
  have sends : journal.Sends
      (fun file => routedStatuses.flatMap fun status =>
        if file = .status status then entries.filter fun entry => Tells status entry else [])
      workspace ((journal.routeAll entries).run workspace).2 := by
    refine sends_forM (fun status _ between apartBetween done => ?_) apart succeeds
    simp only [selected] at done ⊢
    split at done
    · next none =>
      rw [if_pos none, List.isEmpty_iff.mp none]
      simpa using Sends.refl journal between
    · next some =>
      rw [if_neg some]
      exact sends_of_addAll (.status status) apartBetween done
  refine sends.congr fun file => ?_
  cases file with
  | main => rfl
  | status status => cases status <;> simp [routedStatuses, Call.sent]

/-- A call sends to each file what it should. -/
theorem sends_of_perform (call : Call) (apart : journal.Apart workspace)
    (succeeds : ((journal.perform call).run workspace).1 = .ok ()) :
    journal.Sends (fun file => call.sent file) workspace
      ((journal.perform call).run workspace).2 := by
  cases call with
  | log entry =>
      refine (sends_of_addAll .main apart succeeds).congr fun file => ?_
      cases file <;> rfl
  | logBatch entries =>
      refine (sends_of_addAll .main apart succeeds).congr fun file => ?_
      cases file <;> rfl
  | logStatus status entries =>
      refine (sends_of_addAll (.status status) apart succeeds).congr fun file => ?_
      cases file with
      | main => rfl
      | status other => simp only [Call.sent, File.status.injEq, eq_comm]
  | logByStatus entries =>
      simp only [perform, logByStatus, Value.elements?] at succeeds ⊢
      split at succeeds
      · next records =>
        rw [if_pos records]
        exact sends_of_routeAll apart succeeds
      · cases succeeds

end Sends

/-! ### A journal that was begun afresh -/

/-- In the directory of a path there is no file. -/
def HasNoFile (directory : String) (workspace : Workspace) : Prop :=
  ∀ name bytes, workspace.entryAt? (workspace.placeOf directory ++ [name]) ≠ some (.file bytes)

/-- A journal is begun by making its directory, and its files are named for the day. -/
theorem run_begin {directory label : String} {moment : Moment} {workspace made : Workspace}
    {journal : Journal}
    (begins : (begin? directory label moment).run workspace = (.ok journal, made)) :
    journal = ⟨directory, label, moment.date⟩ ∧ ChangesOnly [] workspace made := by
  obtain ⟨_, between, makes, later⟩ := exists_of_bind_ok (congrArg Prod.fst begins)
  rw [show (begin? directory label moment).run workspace = _ from later] at begins
  cases begins
  have changes := makeDirectoriesAt_changesOnly directory workspace
  rw [makes] at changes
  exact ⟨rfl, changes⟩

/-- A journal is kept by beginning it and making the calls. -/
theorem run_keep {directory label : String} {moment : Moment} {calls : List Call}
    {workspace : Workspace} {journal : Journal}
    (succeeds : ((keep directory label moment calls).run workspace).1 = .ok journal) :
    ∃ between, ChangesOnly [] workspace between ∧ journal = ⟨directory, label, moment.date⟩ ∧
      ((calls.forM journal.perform).run between).1 = .ok () ∧
      ((keep directory label moment calls).run workspace).2 =
        ((calls.forM journal.perform).run between).2 := by
  obtain ⟨begun, between, begins, later⟩ := exists_of_bind_ok succeeds
  obtain ⟨named, made⟩ := run_begin begins
  rw [show (keep directory label moment calls).run workspace = _ from later] at succeeds ⊢
  obtain ⟨_, last, performs, returns⟩ := exists_of_bind_ok succeeds
  rw [returns] at succeeds ⊢
  obtain rfl : begun = journal := by simpa using succeeds
  exact ⟨between, made, named, by rw [performs], by rw [performs]; rfl⟩

/-- Where no file is in a directory, a plain name leads to none. -/
theorem HasNoFile.held?_eq {directory name path : String} {workspace : Workspace}
    (fresh : HasNoFile directory workspace)
    (placed : workspace.placeOf path = workspace.placeOf directory ++ [name]) :
    workspace.held? path = none := by
  rw [Option.eq_none_iff_forall_ne_some]
  intro bytes holds
  rw [held?_eq_some_iff, placed] at holds
  exact fresh name bytes holds

/-- A journal is kept in a directory without files.  If its main file is none of its other files
and is not already there outside of the directory, then after any calls that succeed every file
holds, line by line, the entries that were sent to it, in the order of the calls.  And a list in
which something is no record is not routed at all. -/
theorem entriesIn?_keep {directory label : String} {moment : Moment} {calls : List Call}
    {workspace : Workspace} {journal : Journal} (fresh : HasNoFile directory workspace)
    (storable : ∀ call ∈ calls, ∀ entry ∈ call.entries, Storable entry)
    (succeeds : ((keep directory label moment calls).run workspace).1 = .ok journal)
    (apart : ∀ status, workspace.placeOf journal.mainFile ≠
      workspace.placeOf (journal.statusFile status))
    (absent : '/' ∈ label.toList → workspace.held? journal.mainFile = none) :
    (∀ file, entriesIn? (journal.path file) ((keep directory label moment calls).run workspace).2 =
      some (calls.flatMap (Call.sent file))) ∧
    ∀ entries : List Value, (∃ entry ∈ entries, entry.kind ≠ .record) → ∀ state,
      (journal.logByStatus (.list entries)).run state = (.error (.data .notRecord), state) := by
  obtain ⟨between, made, rfl, performs, ended⟩ := run_keep succeeds
  refine ⟨fun file => ?_, ?_⟩
  · have nothing : workspace.held? (path ⟨directory, label, moment.date⟩ file) = none := by
      cases file with
      | main =>
          by_cases slash : '/' ∈ label.toList
          · exact absent slash
          · exact fresh.held?_eq (placeOf_joinText (isName_of_label slash moment) _ _)
      | status status => exact fresh.held?_eq (placeOf_statusFile rfl status workspace)
    have still : between.held? (path ⟨directory, label, moment.date⟩ file) =
        workspace.held? (path ⟨directory, label, moment.date⟩ file) :=
      made.held?_eq fun _ member => absurd member List.not_mem_nil
    have sends := sends_forM (fun call _ _ => sends_of_perform call)
      ((apart_of_main rfl apart).congr made.current) performs
    have sound : ∀ entry ∈ calls.flatMap (Call.sent file), Storable entry := by
      intro entry member
      obtain ⟨call, among, sent⟩ := List.mem_flatMap.mp member
      exact storable call among entry (Call.mem_entries_of_mem_sent sent)
    rw [entriesIn?, ended, sends.bytes, bytesIn, still, nothing, Option.getD_none,
      ByteArray.empty_append, Text.decode_encode]
    exact entriesOf?_linesOf sound
  · rintro entries ⟨entry, member, other⟩ state
    have some : (entries.all fun entry => entry.kind == .record) = false := by
      rw [List.all_eq_false]
      exact ⟨entry, member, by simpa using other⟩
    simp only [logByStatus, Value.elements?, some]
    rfl

/-- The second of January. -/
def secondOfJanuary : Moment := { year := 2024, month := 1, day := 2 }

/-- An entry that needs an escape, routed entries, and an empty batch. -/
def mixedCalls : List Call :=
  [.log (.record [("note", .text "\n")]),
   .logByStatus [.record [("status", .text "halted")], .record [("status", .text "lost")]],
   .logStatus .running []]

/-- A journal in an empty workspace. -/
theorem entriesIn?_keep_mixed :
    (∀ file, entriesIn? (path ⟨"logs/", "run_", "2024-01-02"⟩ file)
        ((keep "logs/" "run_" secondOfJanuary mixedCalls).run {}).2 =
      some (mixedCalls.flatMap (Call.sent file))) ∧
    ∀ entries : List Value, (∃ entry ∈ entries, entry.kind ≠ .record) → ∀ state,
      (logByStatus ⟨"logs/", "run_", "2024-01-02"⟩ (.list entries)).run state =
        (.error (.data .notRecord), state) := by
  refine entriesIn?_keep ?_ ?_ (eq_ok_of_toOption ?_) ?_ ?_
  · intro name bytes
    have place : placeOf "logs/" {} = ["work", "logs"] := by decide +kernel
    simp [place, entryAt?]
  · simp only [mixedCalls, List.forall_mem_cons, Call.entries, List.not_mem_nil, false_implies,
      implies_true, and_true]
    refine ⟨.record (by simp) ?_, .record (by simp) ?_, .record (by simp) ?_⟩
    all_goals
      simp only [List.forall_mem_cons, List.not_mem_nil, false_implies, implies_true, and_true]
      exact .text _
  · decide +kernel
  · intro status
    cases status <;> decide +kernel
  · intro slash
    exact absurd slash (by decide)

/-- A workspace in which another directory already has a file for the second of January. -/
def keptElsewhere : Workspace where
  entries :=
    [(["work", "old"], .directory),
     (["work", "old", "2024-01-02.jsonl"],
      .file (Text.encode (line (.record [("a", .integer 0)]))))]

/-- If what the names of a journal begin with leads out of its directory, its main file may hold
more than what was logged: here the directory has no file, one entry is logged to a main file
that is none of the others, and the file then holds two. -/
theorem entriesIn?_keep_elsewhere :
    HasNoFile "logs/" keptElsewhere ∧
    ((keep "logs/" "../old/" secondOfJanuary [.log (.record [("b", .integer 1)])]).run
      keptElsewhere).1 = .ok ⟨"logs/", "../old/", "2024-01-02"⟩ ∧
    (∀ status, keptElsewhere.placeOf (mainFile ⟨"logs/", "../old/", "2024-01-02"⟩) ≠
      keptElsewhere.placeOf (statusFile ⟨"logs/", "../old/", "2024-01-02"⟩ status)) ∧
    entriesIn? (mainFile ⟨"logs/", "../old/", "2024-01-02"⟩)
      ((keep "logs/" "../old/" secondOfJanuary [.log (.record [("b", .integer 1)])]).run
        keptElsewhere).2 ≠ some [.record [("b", .integer 1)]] := by
  refine ⟨?_, eq_ok_of_toOption (by decide +kernel), ?_, ?_⟩
  · intro name bytes
    have place : placeOf "logs/" keptElsewhere = ["work", "logs"] := by decide +kernel
    rw [place]
    simp [entryAt?, keptElsewhere]
  · intro status
    cases status <;> decide +kernel
  · intro lone
    have two : (entriesIn? (mainFile ⟨"logs/", "../old/", "2024-01-02"⟩)
      ((keep "logs/" "../old/" secondOfJanuary [.log (.record [("b", .integer 1)])]).run
        keptElsewhere).2).map List.length = some 2 := by decide +kernel
    rw [lone] at two
    cases two

end TapeLab.Journal
