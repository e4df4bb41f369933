/-!
# Lines

Two ways of cutting a text into lines.  A machine source breaks at every
Unicode line boundary (`lines`); a file that lists one path per line breaks at
the line feed alone (`feedLines`), after the carriage returns of other systems
have been folded into line feeds (`foldReturns`).
-/

namespace TapeLab.Text

/-- A character that ends a line of a machine source. -/
def isLineBreak (c : Char) : Bool :=
  c == '\n' || c == '\r' || c == '\x0b' || c == '\x0c' || c == '\x1c' || c == '\x1d' ||
    c == '\x1e' || c == '\x85' || c == '\u2028' || c == '\u2029'

/-- A text in which no line ends. -/
def Unbroken (text : List Char) : Prop :=
  ∀ c ∈ text, isLineBreak c = false

instance (text : List Char) : Decidable (Unbroken text) :=
  List.decidableBAll (fun c => isLineBreak c = false) text

/-- Put a character in front of the first line, opening one if there is none. -/
def pushToFirst (c : Char) : List (List Char) → List (List Char)
  | [] => [[c]]
  | first :: others => (c :: first) :: others

/-- The lines of a text of which the character before may have been a return:
a feed right after a return belongs to the boundary that the return made. -/
def linesFrom (afterReturn : Bool) : List Char → List (List Char)
  | [] => []
  | c :: rest =>
    if afterReturn && c == '\n' then linesFrom false rest
    else if isLineBreak c then [] :: linesFrom (c == '\r') rest
    else pushToFirst c (linesFrom false rest)

/-- The lines of a text, without their boundaries.  A boundary at the very end
opens no further line. -/
def lines (text : List Char) : List (List Char) :=
  linesFrom false text

/-- `foldReturns` for a text of which the character before may have been a return. -/
def foldReturnsFrom (afterReturn : Bool) : List Char → List Char
  | [] => []
  | c :: rest =>
    if afterReturn && c == '\n' then foldReturnsFrom false rest
    else if c == '\r' then '\n' :: foldReturnsFrom true rest
    else c :: foldReturnsFrom false rest

/-- Write every return, and every return with its feed, as one line feed. -/
def foldReturns (text : List Char) : List Char :=
  foldReturnsFrom false text

/-- The pieces between line feeds. -/
def feedLines (text : List Char) : List (List Char) :=
  text.splitOn '\n'

/-- Number a list of lines from the given number on. -/
def numberFrom {α : Type} : Nat → List α → List (Nat × α)
  | _, [] => []
  | number, line :: rest => (number, line) :: numberFrom (number + 1) rest

/-- A text without line boundaries is a single line, unless it is empty. -/
theorem lines_of_no_break {text : List Char} (unbroken : ∀ c ∈ text, isLineBreak c = false)
    (nonempty : text ≠ []) : lines text = [text] := by
  induction text with
  | nil => exact absurd rfl nonempty
  | cons c rest inductionHypothesis =>
    have headUnbroken : isLineBreak c = false := unbroken c (by simp)
    cases rest with
    | nil => simp [lines, linesFrom, headUnbroken, pushToFirst]
    | cons d tail =>
      have tailLines := inductionHypothesis
        (fun x member => unbroken x (List.mem_cons_of_mem c member)) (by simp)
      simp only [lines] at tailLines
      simp [lines, linesFrom.eq_2 _ c, headUnbroken, tailLines, pushToFirst]

/-- Where there is no return, none is folded. -/
theorem foldReturns_of_no_return {text : List Char} (unreturned : '\r' ∉ text) :
    foldReturns text = text := by
  simp only [foldReturns]
  induction text with
  | nil => rfl
  | cons c rest inductionHypothesis =>
    have differs : c ≠ '\r' := fun same => unreturned (same ▸ List.mem_cons_self)
    have later := inductionHypothesis fun member => unreturned (List.mem_cons_of_mem c member)
    simp [foldReturnsFrom, differs, later]

/-- Lines that are each ended by a line feed are cut apart again; what follows the last
feed is empty. -/
theorem feedLines_flatMap {lines : List (List Char)} (unbroken : ∀ line ∈ lines, '\n' ∉ line) :
    feedLines (lines.flatMap fun line => line ++ ['\n']) = lines ++ [[]] := by
  induction lines with
  | nil => rfl
  | cons line rest inductionHypothesis =>
    have later := inductionHypothesis fun other member =>
      unbroken other (List.mem_cons_of_mem line member)
    have cut := List.splitOn_append_cons_self_of_not_mem (unbroken line List.mem_cons_self)
      (rest.flatMap fun line => line ++ ['\n'])
    simp only [feedLines] at later ⊢
    simp [List.flatMap_cons, cut, later]

end TapeLab.Text
