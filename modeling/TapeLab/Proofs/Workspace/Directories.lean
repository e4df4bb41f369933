import Mathlib.Data.List.Infix
import TapeLab.Proofs.Workspace.FileName
import TapeLab.Proofs.Workspace.Held

/-!
# Making directories

A path in its shown form is followed part by part (`Path.Plain.follow_text`).  So a directory
that is made with all around it stands, and so does what is around it: the directories
afterwards are those that were there and those on the way of the path
(`directories_of_makeDirectories`).
-/

namespace TapeLab

open Fallible

/-- No piece that a text is cut into has the separator in it. -/
theorem separator_notMem_of_mem_splitOn {separator : Char} {text piece : List Char}
    (member : piece ∈ text.splitOn separator) : separator ∉ piece := by
  induction text generalizing piece with
  | nil => simp [List.mem_singleton.mp member]
  | cons c rest inductionHypothesis =>
      rw [List.splitOn_cons_eq_if_modifyHead] at member
      split at member
      · rcases List.mem_cons.mp member with rfl | later
        · exact List.not_mem_nil
        · exact inductionHypothesis later
      · next differs =>
        cases cut : rest.splitOn separator with
        | nil => exact absurd cut (List.splitOn_ne_nil separator rest)
        | cons first others =>
            rw [cut, List.modifyHead_cons] at member
            rcases List.mem_cons.mp member with rfl | later
            · have firstFree : separator ∉ first :=
                inductionHypothesis (cut ▸ List.mem_cons_self)
              simpa [firstFree] using Ne.symm (by simpa using differs)
            · exact inductionHypothesis (cut ▸ List.mem_cons_of_mem first later)

/-- Separators in front of a text cut off empty pieces. -/
theorem splitOn_replicate_append (separator : Char) (count : Nat) (text : List Char) :
    (List.replicate count separator ++ text).splitOn separator =
      List.replicate count [] ++ text.splitOn separator := by
  induction count with
  | zero => rfl
  | succ count inductionHypothesis =>
      rw [List.replicate_succ, List.cons_append, List.splitOn_cons_eq_if_modifyHead,
        if_pos (by simp), inductionHypothesis]
      rfl

namespace Path

/-- A path in its shown form: slashes at the top, and parts that stand for something. -/
structure Plain (path : Path) : Prop where
  top : ∃ count, path.top = String.ofList (List.replicate count '/')
  parts : ∀ part ∈ path.parts, part ≠ "" ∧ part ≠ "." ∧ '/' ∉ part.toList

/-- Every path that is read from a text is in its shown form. -/
theorem plain_ofText (text : String) : (ofText text).Plain where
  top := by
    simp only [ofText, topOf]
    split
    · exact ⟨0, rfl⟩
    · exact ⟨2, rfl⟩
    · exact ⟨1, rfl⟩
  parts := by
    intro part member
    obtain ⟨isPiece, visible⟩ := List.mem_filter.mp member
    obtain ⟨piece, cut, rfl⟩ := List.mem_map.mp isPiece
    have free := separator_notMem_of_mem_splitOn cut
    simp only [Bool.and_eq_true, bne_iff_ne] at visible
    exact ⟨visible.1, visible.2, by rwa [String.toList_ofList]⟩

namespace Plain

variable {path : Path} (plain : path.Plain)

include plain

/-- What is around a path in its shown form is in its shown form. -/
theorem parent : path.parent.Plain where
  top := plain.top
  parts := fun part member => plain.parts part (List.dropLast_subset path.parts member)

/-- What is inside a directory in its shown form is in its shown form. -/
theorem join {inside : Path} (insidePlain : inside.Plain) : (path.join inside).Plain := by
  simp only [Path.join]
  split
  · refine ⟨plain.top, fun part member => ?_⟩
    rcases List.mem_append.mp member with around | within
    · exact plain.parts part around
    · exact insidePlain.parts part within
  · exact insidePlain

/-- The text of a path with parts, character by character. -/
theorem toList_text (inner : path.parts ≠ []) : path.text.toList =
    path.top.toList ++ ['/'].intercalate (path.parts.map String.toList) := by
  have joined : (path.top ++ String.intercalate "/" path.parts).toList =
      path.top.toList ++ ['/'].intercalate (path.parts.map String.toList) := by
    simp [String.toList_intercalate]
  have visible : (path.top ++ String.intercalate "/" path.parts).isEmpty = false := by
    obtain ⟨first, others, parts⟩ := List.exists_cons_of_ne_nil inner
    have named : first ≠ "" := (plain.parts first (parts ▸ List.mem_cons_self)).1
    cases others <;> simp [← Bool.not_eq_true, String.isEmpty_iff, parts, named]
  simp only [text, visible]
  exact joined

/-- The pieces of a path are its parts, after nothing at the top. -/
theorem pathPieces_text (inner : path.parts ≠ []) :
    ∃ count, pathPieces path.text = List.replicate count "" ++ path.parts := by
  obtain ⟨count, slashes⟩ := plain.top
  refine ⟨count, ?_⟩
  have free : ∀ piece ∈ path.parts.map String.toList, '/' ∉ piece := by
    intro piece member
    obtain ⟨part, isPart, rfl⟩ := List.mem_map.mp member
    exact (plain.parts part isPart).2.2
  rw [pathPieces, plain.toList_text inner, slashes, String.toList_ofList,
    splitOn_replicate_append, List.splitOn_intercalate '/' free (by simpa using inner)]
  simp

/-- The text of a path with parts has no slash at its end. -/
theorem withoutFinalSlashes_text (inner : path.parts ≠ []) :
    withoutFinalSlashes path.text = path.text := by
  obtain ⟨front, last, parts⟩ := (List.eq_nil_or_concat path.parts).resolve_left inner
  obtain ⟨named, -, free⟩ := plain.parts last (by simp [parts])
  have someEnd : last.toList.getLast?.isSome = true := by simpa using named
  obtain ⟨c, ends⟩ := Option.isSome_iff_exists.mp someEnd
  have whole : EndsIn c path.text := endsIn_text (by simpa using parts) ends
  have differs : c ≠ '/' := fun same => free (same ▸ List.mem_of_getLast? ends)
  obtain ⟨rest, text⟩ := List.getLast?_eq_some_iff.mp whole
  have kept : (path.text.toList.reverse.dropWhile (· == '/')).reverse = path.text.toList := by
    rw [text, List.reverse_append, List.reverse_singleton, List.singleton_append,
      List.dropWhile_cons_of_neg (by simpa using differs), List.reverse_cons, List.reverse_reverse]
  have visible : path.text.toList.isEmpty = false := by simp [text]
  simp only [withoutFinalSlashes, kept, visible]
  exact String.ofList_toList

/-- A path begins at the top just if its text begins with a slash. -/
theorem startsWith_text : path.text.startsWith "/" = !path.top.isEmpty := by
  obtain ⟨count, slashes⟩ := plain.top
  have slash : "/".toList = ['/'] := rfl
  rw [Bool.eq_iff_iff, String.startsWith_string_iff, slash]
  cases count with
  | succ count =>
      have absolute : path.top ≠ "" := by simp [slashes]
      have shown : path.text = path.top ++ String.intercalate "/" path.parts := by
        simp [text, absolute, String.isEmpty_iff]
      simp [shown, slashes, List.replicate_succ]
  | zero =>
      have relative : path.top = "" := slashes
      cases parts : path.parts with
      | nil => simp [text, relative, parts, List.prefix_iff_eq_append]
      | cons first others =>
          obtain ⟨named, -, free⟩ := plain.parts first (by simp [parts])
          have visible : first.toList ≠ [] := by simpa using named
          obtain ⟨c, more, chars⟩ := List.exists_cons_of_ne_nil visible
          have differs : '/' ≠ c := by
            rintro rfl
            exact free (by simp [chars])
          have begins : ∃ rest, path.text.toList = c :: rest := by
            rw [plain.toList_text (by simp [parts]), relative, parts, List.map_cons, chars]
            cases others with
            | nil => exact ⟨more, by simp⟩
            | cons second others => exact ⟨_, by rw [List.map_cons, List.intercalate_cons_cons]; rfl⟩
          obtain ⟨rest, begins⟩ := begins
          simp [begins, relative, differs]

/-- The pieces of a path without slashes at its end are its parts, after pieces that lead
nowhere else. -/
theorem pathPieces_withoutFinalSlashes : ∃ skipped : List String,
    (∀ piece ∈ skipped, piece = "" ∨ piece = ".") ∧
      pathPieces (withoutFinalSlashes path.text) = skipped ++ path.parts := by
  by_cases inner : path.parts = []
  · obtain ⟨count, slashes⟩ := plain.top
    cases count with
    | zero =>
        have here : path.text = "." := by simp [text, inner, slashes]
        refine ⟨["."], by simp, ?_⟩
        rw [here, inner]
        rfl
    | succ count =>
        have shown : path.text = String.ofList (List.replicate (count + 1) '/') := by
          simp [text, inner, slashes, String.isEmpty_iff]
        have cut := splitOn_replicate_append '/' (count + 1) []
        rw [List.append_nil] at cut
        refine ⟨List.replicate (count + 1) "" ++ [""], by simp, ?_⟩
        simp [withoutFinalSlashes, shown, pathPieces, cut, inner]
  · obtain ⟨count, pieces⟩ := plain.pathPieces_text inner
    refine ⟨List.replicate count "", by simp, ?_⟩
    rw [plain.withoutFinalSlashes_text inner, pieces]

end Plain

end Path

namespace Workspace

variable {workspace before after : Workspace} {path : Path}

/-- Where a path in its shown form begins. -/
def rootOf (path : Path) (workspace : Workspace) : Location :=
  if path.top.isEmpty then workspace.current else []

/-- The places on the way of a path, its own among them. -/
def ways (path : Path) (workspace : Workspace) : List Location :=
  path.parts.inits.map (descend (workspace.rootOf path))

/-- Pieces can only be followed from a directory. -/
theorem entryAt?_of_follow_cons {place found : Location} {piece : String} {rest : List String}
    (followed : workspace.follow place (piece :: rest) = .ok found) :
    workspace.entryAt? place = some .directory := by
  rw [follow] at followed
  split at followed
  · cases followed
  · cases followed
  · next stands => exact stands

/-- Pieces that are followed are followed up to any of them. -/
theorem follow_append {place found : Location} {pieces rest : List String}
    (followed : workspace.follow place (pieces ++ rest) = .ok found) :
    workspace.follow (descend place pieces) rest = .ok found := by
  induction pieces generalizing place with
  | nil => exact followed
  | cons piece pieces inductionHypothesis =>
      have stands := entryAt?_of_follow_cons followed
      simp only [List.cons_append, follow, stands] at followed
      simp only [descend]
      split at followed
      · next skipped => rw [if_pos skipped]; exact inductionHypothesis followed
      · next kept =>
        rw [if_neg kept]
        split at followed
        · next upward => rw [if_pos upward]; exact inductionHypothesis followed
        · next downward =>
          rw [if_neg downward]
          split at followed
          · cases followed
          · exact inductionHypothesis followed

/-- Pieces that lead nowhere else lead nowhere else. -/
theorem descend_skipped {skipped : List String} (place : Location)
    (skips : ∀ piece ∈ skipped, piece = "" ∨ piece = ".") : descend place skipped = place := by
  induction skipped with
  | nil => rfl
  | cons piece rest inductionHypothesis =>
      have here : (piece == "" || piece == ".") = true := by
        simpa using skips piece List.mem_cons_self
      rw [descend, if_pos here]
      exact inductionHypothesis fun other member => skips other (List.mem_cons_of_mem piece member)

/-- A directory that can be made is followed to by the parts of its path. -/
theorem follow_parts_of_locateNew {place : Location} (plain : path.Plain)
    (located : workspace.locateNew path.text = .ok place) :
    workspace.follow (workspace.rootOf path) path.parts = .ok place := by
  obtain ⟨skipped, skips, pieces⟩ := plain.pathPieces_withoutFinalSlashes
  simp only [locateNew] at located
  cases begun : workspace.origin path.text with
  | error cause => simp [begun, bind, Except.bind] at located
  | ok start =>
      have root : start = workspace.rootOf path := by
        rw [eq_of_origin begun, plain.startsWith_text, rootOf]
        cases path.top.isEmpty <;> rfl
      simp only [begun, bind, Except.bind, pieces, root] at located
      have followed := follow_append located
      rwa [descend_skipped _ skips] at followed

/-- All that is around something that can be followed to is there. -/
theorem entryAt?_of_mem_inits {place found : Location} {front inner : List String} {last : String}
    (followed : workspace.follow place (front ++ [last]) = .ok found)
    (member : inner ∈ front.inits) :
    workspace.entryAt? (descend place inner) = some .directory := by
  obtain ⟨rest, rfl⟩ := (List.mem_inits inner front).mp member
  rw [List.append_assoc] at followed
  have later := follow_append followed
  cases rest <;> exact entryAt?_of_follow_cons later

/-- After a directory was made, it stands, and else the same ones do. -/
theorem directories_of_makeDirectory {text : String}
    (succeeds : ((makeDirectory text).run workspace).1 = .ok ()) :
    ∃ place, workspace.locateNew text = .ok place ∧
      ∀ other, ((makeDirectory text).run workspace).2.entryAt? other = some .directory ↔
        workspace.entryAt? other = some .directory ∨ other = place := by
  simp only [makeDirectory, run_bind_ok (run_get workspace)] at succeeds ⊢
  cases located : workspace.locateNew text with
  | error cause =>
      rw [located] at succeeds
      cases succeeds
  | ok place =>
      have found : (orFail text (.ok place)).run workspace = (.ok place, workspace) := rfl
      rw [located, run_bind_ok found] at succeeds
      rw [run_bind_ok found]
      refine ⟨place, rfl, fun other => ?_⟩
      cases stands : workspace.entryAt? place with
      | none =>
          rw [stands] at succeeds
          have free : workspace.entryAt? place ≠ some .directory := by simp [stands]
          dsimp only at succeeds ⊢
          obtain ⟨refusals, accepted | refused⟩ :=
            change_outcome text place .directory workspace
          · have same : SameDirectories (workspace.put place .directory)
                { workspace.put place .directory with refusals } := .of_entries rfl rfl
            rw [accepted, same.directories other,
              entryAt?_put_of_not_directory .directory free other]
            by_cases here : place = other
            · simp [here]
            · simp [here, Ne.symm here]
          · rw [refused] at succeeds
            cases succeeds
      | some entry =>
          rw [stands] at succeeds
          cases entry with
          | file bytes => cases succeeds
          | directory =>
              have already : other = place → workspace.entryAt? other = some .directory :=
                fun same => same ▸ stands
              exact ⟨Or.inl, fun either => either.elim id already⟩

/-- The directories after one was made with all around it are those that were there and those
on the way. -/
structure Made (path : Path) (before after : Workspace) : Prop where
  current : after.current = before.current
  directories : ∀ place, after.entryAt? place = some .directory ↔
    before.entryAt? place = some .directory ∨ place ∈ before.ways path

/-- The way of a path is that of what is around it, and then its own place. -/
theorem ways_append (top : String) (front : List String) (last : String) (workspace : Workspace) :
    workspace.ways ⟨top, front ++ [last]⟩ =
      workspace.ways ⟨top, front⟩ ++
        [descend (workspace.rootOf ⟨top, front ++ [last]⟩) (front ++ [last])] := by
  simp [ways, List.inits_append, rootOf]

/-- Where a path begins depends on the current directory alone. -/
theorem rootOf_congr (current : after.current = before.current) :
    after.rootOf path = before.rootOf path := by
  simp only [rootOf, current]

/-- What is on the way of a path depends on the current directory alone. -/
theorem ways_congr (current : after.current = before.current) :
    after.ways path = before.ways path := by
  simp only [ways, rootOf_congr current]

/-- The place of a directory that is made is the last on its way. -/
theorem eq_descend_of_locateNew {place : Location} (plain : path.Plain)
    (located : workspace.locateNew path.text = .ok place) :
    place = descend (workspace.rootOf path) path.parts :=
  eq_descend_of_follow (follow_parts_of_locateNew plain located)

section Made

variable {otherBefore otherAfter : Workspace}

/-- What is on the way of a directory that was made stands. -/
theorem Made.stands (made : Made path before after) {place : Location}
    (onWay : place ∈ before.ways path) : after.entryAt? place = some .directory :=
  (made.directories place).mpr (Or.inr onWay)

/-- Making what stands makes nothing. -/
theorem Made.sameDirectories (made : Made path before after)
    (stands : ∀ place ∈ before.ways path, before.entryAt? place = some .directory) :
    SameDirectories before after where
  current := made.current
  directories := fun place =>
    (made.directories place).trans ⟨fun either => either.elim id (stands place), Or.inl⟩

/-- Where there were the same directories there are the same after one was made. -/
theorem Made.congr (made : Made path before after) (other : Made path otherBefore otherAfter)
    (same : SameDirectories before otherBefore) : SameDirectories after otherAfter where
  current := by rw [other.current, made.current, same.current]
  directories := by
    intro place
    rw [other.directories place, made.directories place, same.directories place,
      ways_congr same.current]

end Made

/-- Once what is around a directory was made, making the directory is the last of its way. -/
theorem Made.makeDirectory {top last : String} {front : List String}
    (made : Made ⟨top, front⟩ before after) (plain : (Path.mk top (front ++ [last])).Plain)
    (succeeds : ((Workspace.makeDirectory (Path.mk top (front ++ [last])).text).run after).1 =
      .ok ()) :
    Made ⟨top, front ++ [last]⟩ before
      ((Workspace.makeDirectory (Path.mk top (front ++ [last])).text).run after).2 := by
  obtain ⟨place, located, directories⟩ := directories_of_makeDirectory succeeds
  have place := eq_descend_of_locateNew plain located
  rw [rootOf_congr made.current] at place
  refine ⟨(makeDirectory_changesOnly _ after).current.trans made.current, fun other => ?_⟩
  rw [directories other, made.directories other, ways_append, List.mem_append,
    List.mem_singleton, place, or_assoc]

/-- If a directory can be followed to, what is around it need not be made. -/
theorem made_of_locateNew {top last : String} {front : List String} {place : Location}
    (plain : (Path.mk top (front ++ [last])).Plain)
    (located : workspace.locateNew (Path.mk top (front ++ [last])).text = .ok place) :
    Made ⟨top, front⟩ workspace workspace where
  current := rfl
  directories := by
    intro other
    refine ⟨Or.inl, fun either => either.elim id fun member => ?_⟩
    obtain ⟨inner, isInner, rfl⟩ := List.mem_map.mp member
    exact entryAt?_of_mem_inits (follow_parts_of_locateNew plain located) isInner

/-- Making the directory with some parts, innermost first, makes those on its way. -/
theorem made_of_makeInnermost {top : String} {parts : List String}
    (plain : (Path.mk top parts.reverse).Plain)
    (succeeds : ((makeInnermost top parts).run workspace).1 = .ok ()) :
    Made ⟨top, parts.reverse⟩ workspace ((makeInnermost top parts).run workspace).2 := by
  induction parts generalizing workspace with
  | nil =>
      obtain ⟨place, located, directories⟩ := directories_of_makeDirectory succeeds
      have root := eq_descend_of_locateNew plain located
      refine ⟨(makeDirectory_changesOnly _ workspace).current, fun other => ?_⟩
      rw [makeInnermost, directories other, root]
      simp [ways, descend]
  | cons part around inductionHypothesis =>
      have parts : (part :: around).reverse = around.reverse ++ [part] := List.reverse_cons
      rw [parts] at plain ⊢
      simp only [makeInnermost, parts, run_bind_ok (run_get workspace)] at succeeds ⊢
      split at succeeds
      · next missing =>
        obtain ⟨_, between, ended, later⟩ := exists_of_bind_ok succeeds
        have inner : (Path.mk top around.reverse).Plain := by
          simpa [Path.parent] using plain.parent
        have made := inductionHypothesis inner (by rw [ended])
        rw [ended] at made
        rw [later] at succeeds ⊢
        exact made.makeDirectory plain succeeds
      · next present =>
        obtain ⟨place, located, -⟩ := directories_of_makeDirectory succeeds
        exact (made_of_locateNew plain located).makeDirectory plain succeeds

/-- After a directory was made with all around it, those on its way stand, and else the same
ones do. -/
theorem made_of_makeDirectories (plain : path.Plain)
    (succeeds : ((makeDirectories path).run workspace).1 = .ok ()) :
    Made path workspace ((makeDirectories path).run workspace).2 := by
  have same : path.parts.reverse.reverse = path.parts := List.reverse_reverse _
  have shown : (Path.mk path.top path.parts.reverse.reverse).Plain := by
    rw [same]
    exact plain
  have made := made_of_makeInnermost shown succeeds
  rwa [same] at made

/-- The workspace with some directories that may have been missing. -/
def withDirectories (places : List Location) (workspace : Workspace) : Workspace :=
  { workspace with
    entries := places.foldl (fun entries place => putEntry place .directory entries)
      workspace.entries }

/-- The directories that were added stand, and everything else stands where it stood. -/
theorem entryAt?_withDirectories (places : List Location) (workspace : Workspace)
    (other : Location) :
    (workspace.withDirectories places).entryAt? other =
      if other ∈ places then some .directory else workspace.entryAt? other := by
  suffices found : ∀ entries, ((places.foldl
      (fun entries place => putEntry place .directory entries) entries).find?
        fun entry => entry.1 == other).map Prod.snd =
      if other ∈ places then some .directory
      else (entries.find? fun entry => entry.1 == other).map Prod.snd by
    simp only [withDirectories, entryAt?, found]
    split <;> split <;> rfl
  intro entries
  induction places generalizing entries with
  | nil => rfl
  | cons place rest inductionHypothesis =>
      rw [List.foldl_cons, inductionHypothesis, find?_putEntry]
      by_cases later : other ∈ rest
      · simp [later]
      · by_cases here : place = other
        · simp [here]
        · simp [later, here, Ne.symm here]

end Workspace

end TapeLab
