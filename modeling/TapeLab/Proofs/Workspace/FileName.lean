import TapeLab.Proofs.Workspace.Place

/-!
# The names of places

A path whose text ends in a letter leads to a place whose name ends in that letter, no
matter which dots and slashes come before.  So files with different suffixes are at
different places.
-/

namespace TapeLab

/-- A text that ends in a character. -/
def EndsIn (c : Char) (text : String) : Prop :=
  text.toList.getLast? = some c

/-- Whatever comes before, a text ends as its last part does. -/
theorem EndsIn.append {c : Char} {text : String} (ends : EndsIn c text) (front : String) :
    EndsIn c (front ++ text) := by
  rw [EndsIn] at ends ⊢
  rw [String.toList_append, List.getLast?_append, ends]
  rfl

/-- The last piece of a text ends as the text does. -/
theorem exists_last_piece {c separator : Char} {text : List Char}
    (ends : text.getLast? = some c) (differs : c ≠ separator) :
    ∃ pieces last, text.splitOn separator = pieces ++ [last] ∧ last.getLast? = some c := by
  induction text with
  | nil => cases ends
  | cons d rest inductionHypothesis =>
      cases rest with
      | nil =>
          obtain rfl : d = c := by simpa using ends
          exact ⟨[], [d], List.splitOn_eq_singleton (by simpa using differs.symm), rfl⟩
      | cons e others =>
          rw [List.getLast?_cons_cons] at ends
          obtain ⟨pieces, last, cut, lastEnds⟩ := inductionHypothesis ends
          rw [List.splitOn_cons_eq_if_modifyHead, cut]
          split
          · exact ⟨[] :: pieces, last, rfl, lastEnds⟩
          · cases pieces with
            | nil =>
                refine ⟨[], d :: last, rfl, ?_⟩
                cases last with
                | nil => cases lastEnds
                | cons f tail => rw [List.getLast?_cons_cons, lastEnds]
            | cons piece others => exact ⟨(d :: piece) :: others, last, rfl, lastEnds⟩

/-- The last piece of a path ends as the path does. -/
theorem exists_last_pathPiece {c : Char} {path : String} (ends : EndsIn c path)
    (named : c ≠ '/') : ∃ pieces last, pathPieces path = pieces ++ [last] ∧ EndsIn c last := by
  obtain ⟨pieces, last, cut, lastEnds⟩ := exists_last_piece ends named
  refine ⟨pieces.map String.ofList, String.ofList last, ?_, ?_⟩
  · rw [pathPieces, cut, List.map_append]
    rfl
  · rw [EndsIn, String.toList_ofList]
    exact lastEnds

/-- A piece that ends in a letter stands for a name. -/
theorem ne_dots_of_endsIn {c : Char} {piece : String} (ends : EndsIn c piece)
    (letter : c ≠ '.') : piece ≠ "" ∧ piece ≠ "." ∧ piece ≠ ".." := by
  refine ⟨?_, ?_, ?_⟩
  · rintro rfl
    cases ends
  · rintro rfl
    exact letter (Option.some.inj ends).symm
  · rintro rfl
    exact letter (Option.some.inj ends).symm

namespace Path

/-- The shown form of a path ends as its last part does. -/
theorem endsIn_text {c : Char} {path : Path} {front : List String} {last : String}
    (parts : path.parts = front ++ [last]) (ends : EndsIn c last) : EndsIn c path.text := by
  have joined : EndsIn c (String.intercalate "/" path.parts) := by
    rw [parts]
    cases front with
    | nil => simpa using ends
    | cons first others =>
        rw [String.intercalate_append_of_ne_nil (List.cons_ne_nil _ _) (List.cons_ne_nil _ _),
          String.intercalate_singleton]
        exact ends.append _
  have shown := joined.append path.top
  have nonempty : (path.top ++ String.intercalate "/" path.parts).isEmpty = false := by
    rw [← Bool.not_eq_true, String.isEmpty_iff]
    intro empty
    rw [empty] at shown
    cases shown
  simp only [text, nonempty]
  exact shown

/-- A file in a directory is shown with the last letter of its name. -/
theorem endsIn_join {c : Char} {name : String} (ends : EndsIn c name) (named : c ≠ '/')
    (letter : c ≠ '.') (directory : Path) : EndsIn c (directory.join (ofText name)).text := by
  obtain ⟨pieces, last, cut, lastEnds⟩ := exists_last_pathPiece ends named
  obtain ⟨notEmpty, notDot, -⟩ := ne_dots_of_endsIn lastEnds letter
  have parts : (ofText name).parts =
      (pieces.filter fun piece => piece != "" && piece != ".") ++ [last] := by
    simp [ofText, cut, notEmpty, notDot]
  simp only [join]
  split
  · exact endsIn_text (by rw [parts, ← List.append_assoc]) lastEnds
  · exact endsIn_text parts lastEnds

/-- A directory's path with a file name after it ends as the name does. -/
theorem endsIn_joinText {c : Char} {name : String} (ends : EndsIn c name)
    (directory : String) : EndsIn c (joinText directory name) := by
  simp only [joinText]
  split
  · exact ends
  · split
    · exact ends.append _
    · exact ends.append _

end Path

namespace Workspace

/-- Pieces after others lead on from where those led. -/
theorem descend_append (place : Location) (first second : List String) :
    descend place (first ++ second) = descend (descend place first) second := by
  induction first generalizing place with
  | nil => rfl
  | cons piece rest inductionHypothesis =>
      simp only [List.cons_append, descend]
      split
      · exact inductionHypothesis place
      · split
        · exact inductionHypothesis place.dropLast
        · exact inductionHypothesis (place ++ [piece])

/-- The place of a path has a name that ends as the path does. -/
theorem exists_placeOf_eq {c : Char} {path : String} (ends : EndsIn c path) (named : c ≠ '/')
    (letter : c ≠ '.') (workspace : Workspace) :
    ∃ around name, workspace.placeOf path = around ++ [name] ∧ EndsIn c name := by
  obtain ⟨pieces, last, cut, lastEnds⟩ := exists_last_pathPiece ends named
  obtain ⟨notEmpty, notDot, notDots⟩ := ne_dots_of_endsIn lastEnds letter
  refine ⟨descend (if path.startsWith "/" then [] else workspace.current) pieces, last, ?_,
    lastEnds⟩
  rw [placeOf, cut, descend_append]
  simp [descend, notEmpty, notDot, notDots]

/-- Paths that end in different letters lead to different places. -/
theorem placeOf_ne_of_endsIn {c d : Char} {first second : String} (firstEnds : EndsIn c first)
    (secondEnds : EndsIn d second) (differs : c ≠ d) (firstName : c ≠ '/' ∧ c ≠ '.')
    (secondName : d ≠ '/' ∧ d ≠ '.') (workspace : Workspace) :
    workspace.placeOf first ≠ workspace.placeOf second := by
  obtain ⟨around, name, firstPlace, nameEnds⟩ :=
    exists_placeOf_eq firstEnds firstName.1 firstName.2 workspace
  obtain ⟨around', name', secondPlace, nameEnds'⟩ :=
    exists_placeOf_eq secondEnds secondName.1 secondName.2 workspace
  intro same
  rw [firstPlace, secondPlace] at same
  obtain rfl : name = name' := (List.append_inj_right' same rfl) |> List.singleton_inj.mp
  exact differs (Option.some.inj (nameEnds.symm.trans nameEnds'))

end Workspace

end TapeLab
