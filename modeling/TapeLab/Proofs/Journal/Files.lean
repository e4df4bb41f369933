import TapeLab.Journal.Call
import TapeLab.Proofs.Workspace.Directories

/-!
# Where the files of a journal are

A plain file name after the path of a directory leads into that directory
(`placeOf_joinText`).  So the files for the statuses of a journal are in its directory, and no
two of them are one file.
-/

namespace TapeLab

/-- A last piece without the separator is cut off. -/
theorem splitOn_append_separator {separator : Char} (front : List Char) {last : List Char}
    (free : separator ∉ last) :
    (front ++ separator :: last).splitOn separator = front.splitOn separator ++ [last] := by
  induction front with
  | nil =>
      rw [List.nil_append, List.splitOn_cons_eq_if_modifyHead, if_pos (by simp),
        List.splitOn_eq_singleton free]
      rfl
  | cons c rest inductionHypothesis =>
      rw [List.cons_append, List.splitOn_cons_eq_if_modifyHead, inductionHypothesis,
        List.splitOn_cons_eq_if_modifyHead]
      split
      · rfl
      · cases cut : rest.splitOn separator with
        | nil => exact absurd cut (List.splitOn_ne_nil separator rest)
        | cons first others => rfl

namespace Workspace

/-- A name that stands for a file: it has no slash, and it is neither empty nor made of dots
that lead elsewhere. -/
structure IsName (name : String) : Prop where
  plain : '/' ∉ name.toList
  some : name ≠ ""
  notDot : name ≠ "."
  notDots : name ≠ ".."

/-- A name leads from a place into it. -/
theorem IsName.descend {name : String} (isName : IsName name) (place : Location) :
    descend place [name] = place ++ [name] := by
  simp [Workspace.descend, isName.some, isName.notDot, isName.notDots]

/-- A plain name is one piece. -/
theorem IsName.splitOn {name : String} (isName : IsName name) :
    name.toList.splitOn '/' = [name.toList] :=
  List.splitOn_eq_singleton isName.plain

/-- Paths that begin alike begin at the same place. -/
theorem startsWith_append {front : String} (some : front ≠ "") (rest : String) :
    (front ++ rest).startsWith "/" = front.startsWith "/" := by
  have slash : "/".toList = ['/'] := rfl
  rw [Bool.eq_iff_iff, String.startsWith_string_iff, String.startsWith_string_iff,
    String.toList_append, slash]
  cases shown : front.toList with
  | nil => exact absurd (String.toList_eq_nil_iff.mp shown) some
  | cons c others => simp

/-- A text ends with another if the characters of that are its last ones. -/
theorem endsWith_iff {text ending : String} :
    text.endsWith ending = true ↔ ending.toList <:+ text.toList := by
  rw [← String.endsWith_toSlice, String.Slice.endsWith_string_iff, String.copy_toSlice]

/-- A plain name after the path of a directory leads into that directory. -/
theorem placeOf_joinText {name : String} (isName : IsName name) (directory : String)
    (workspace : Workspace) :
    workspace.placeOf (Path.joinText directory name) = workspace.placeOf directory ++ [name] := by
  have slash : "/".toList = ['/'] := rfl
  have named : name.startsWith "/" = false := by
    rw [← Bool.not_eq_true, String.startsWith_string_iff, slash]
    rintro ⟨rest, begins⟩
    exact isName.plain (begins ▸ List.mem_append_left rest List.mem_cons_self)
  have pieces : ∀ front : List Char, (front ++ '/' :: name.toList).splitOn '/' =
      front.splitOn '/' ++ [name.toList] :=
    fun front => splitOn_append_separator front isName.plain
  by_cases empty : directory = ""
  · have joined : Path.joinText directory name = name := by
      simp [Path.joinText, named, empty]
    have begun : directory.startsWith "/" = false := by
      rw [empty]
      decide +kernel
    have start : workspace.placeOf directory = workspace.current := by
      rw [placeOf, begun, empty]
      rfl
    rw [joined, start, placeOf, named, pathPieces, isName.splitOn, List.map_singleton,
      String.ofList_toList]
    exact isName.descend workspace.current
  · have visible : directory.isEmpty = false := by
      rwa [← Bool.not_eq_true, String.isEmpty_iff]
    have begun := startsWith_append empty
    by_cases ends : directory.endsWith "/" = true
    · have joined : Path.joinText directory name = directory ++ name := by
        simp [Path.joinText, named, ends]
      obtain ⟨front, cut⟩ := endsWith_iff.mp ends
      have emptyPiece : (front ++ ['/']).splitOn '/' = front.splitOn '/' ++ [[]] :=
        splitOn_append_separator front List.not_mem_nil
      rw [joined, placeOf, placeOf, begun, pathPieces, pathPieces, String.toList_append, ← cut,
        slash, List.append_assoc, List.singleton_append, pieces, emptyPiece, List.map_append,
        List.map_append, descend_append, descend_append, List.map_singleton,
        String.ofList_toList, isName.descend]
      rfl
    · have joined : Path.joinText directory name = directory ++ ("/" ++ name) := by
        simp [Path.joinText, named, visible, ends, String.append_assoc]
      rw [joined, placeOf, placeOf, begun, pathPieces, pathPieces, String.toList_append,
        String.toList_append, slash, List.singleton_append, pieces, List.map_append, descend_append,
        List.map_singleton, String.ofList_toList, isName.descend]

end Workspace

namespace Journal

open Workspace

/-- A date has no slash. -/
theorem slash_notMem_date (moment : Moment) : '/' ∉ moment.date.toList := by
  have digits : ∀ number, '/' ∉ Nat.toDigits 10 number := by
    intro number member
    have digit := Nat.isDigit_of_mem_toDigits (by omega) (by omega) member
    simp at digit
  have padded : ∀ width number, '/' ∉ (Moment.padded width number).toList := by
    intro width number member
    rw [Moment.padded, String.toList_ofList, List.mem_append] at member
    rcases member with zero | digit
    · exact absurd (List.mem_replicate.mp zero).2 (by decide)
    · exact digits number digit
  have hyphen : '/' ∉ "-".toList := by decide
  simp only [Moment.date, String.toList_append, List.mem_append, Nat.toString_eq_ofList_toDigits,
    String.toList_ofList]
  simp [digits, padded]

/-- The name of a journal's file is a plain name if what it begins with has no slash. -/
theorem isName_of_label {label : String} (plain : '/' ∉ label.toList) (moment : Moment) :
    IsName (label ++ moment.date ++ ".jsonl") := by
  have suffix : EndsIn 'l' ".jsonl" := rfl
  obtain ⟨some, notDot, notDots⟩ :=
    ne_dots_of_endsIn (suffix.append (label ++ moment.date)) (by decide)
  refine ⟨?_, some, notDot, notDots⟩
  simp only [String.toList_append, List.mem_append, not_or]
  exact ⟨⟨plain, slash_notMem_date moment⟩, by decide⟩

variable {journal : Journal} {moment : Moment}

/-- A file for a status is in the directory of the journal. -/
theorem placeOf_statusFile (dated : journal.day = moment.date) (status : Status)
    (workspace : Workspace) : workspace.placeOf (journal.statusFile status) =
      workspace.placeOf journal.directory ++ [statusLabel status ++ moment.date ++ ".jsonl"] := by
  have plain : '/' ∉ (statusLabel status).toList := by cases status <;> decide
  rw [statusFile, file, dated, placeOf_joinText (isName_of_label plain moment)]

/-- The files for the statuses are different files. -/
theorem placeOf_statusFile_injective (dated : journal.day = moment.date) (workspace : Workspace) :
    Function.Injective fun status => workspace.placeOf (journal.statusFile status) := by
  intro first second same
  simp only [placeOf_statusFile dated] at same
  have names := congrArg String.toList (List.singleton_inj.mp (List.append_inj_right' same rfl))
  simp only [String.toList_append, List.append_assoc] at names
  -- the names already differ in their first letters
  have letters := congrArg List.head? names
  cases first <;> cases second <;> first | rfl | exact absurd letters (by simp [statusLabel])

end Journal

end TapeLab
