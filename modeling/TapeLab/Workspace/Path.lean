/-!
# Paths

A path as the laboratory shows it: without empty parts, without single dots, and
without a slash at its end.  Two dots stay, since what they lead to depends on the
files.  `joinText` and `directoryText` work on the text of a path as it was given,
for those file names that are shown the way they were asked for.
-/

namespace TapeLab

/-- The pieces of a path between its slashes. -/
def pathPieces (text : String) : List String :=
  (text.toList.splitOn '/').map String.ofList

/-- A path in its shown form.  The top is empty for a path that begins in the
current directory; two slashes at the front are kept apart from one. -/
structure Path where
  top : String := ""
  parts : List String
  deriving DecidableEq, Repr

namespace Path

/-- The slashes at the front of a path, in their shown form. -/
def topOf (text : String) : String :=
  match (text.toList.takeWhile (· == '/')).length with
  | 0 => ""
  | 2 => "//"
  | _ => "/"

/-- The path that a text gives. -/
def ofText (text : String) : Path where
  top := topOf text
  parts := (pathPieces text).filter fun piece => piece != "" && piece != "."

/-- The text of a path; a path without parts is the current directory. -/
def text (path : Path) : String :=
  let shown := path.top ++ String.intercalate "/" path.parts
  if shown.isEmpty then "." else shown

/-- The directory that a path stands in. -/
def parent (path : Path) : Path :=
  { path with parts := path.parts.dropLast }

/-- The last part of a path. -/
def name (path : Path) : String :=
  path.parts.getLast?.getD ""

/-- Cut a name before its last dot.  A dot at either end of the name counts as a
part of it. -/
def splitName (name : String) : String × String :=
  let characters := name.toList
  let tail := (characters.reverse.takeWhile (· != '.')).reverse
  let stem := characters.take (characters.length - tail.length - 1)
  if stem.isEmpty || tail.isEmpty || tail.length == characters.length then (name, "")
  else (String.ofList stem, String.ofList ('.' :: tail))

/-- The name without its suffix. -/
def stem (path : Path) : String :=
  (splitName path.name).1

/-- The suffix of the name, with its dot. -/
def suffix (path : Path) : String :=
  (splitName path.name).2

/-- The path of something inside a directory; one from the top stands for itself. -/
def join (directory inside : Path) : Path :=
  if inside.top.isEmpty then { directory with parts := directory.parts ++ inside.parts }
  else inside

/-- A directory's path, as it was given, with a file name after it. -/
def joinText (directory name : String) : String :=
  if name.startsWith "/" then name
  else if directory.isEmpty || directory.endsWith "/" then directory ++ name
  else directory ++ "/" ++ name

/-- A path's text without slashes at its end, unless there is nothing else. -/
def withoutFinalSlashes (text : String) : String :=
  let kept := (text.toList.reverse.dropWhile (· == '/')).reverse
  if kept.isEmpty then text else String.ofList kept

/-- The directory in which a path, as it was given, stands; empty for one without
a slash. -/
def directoryText (text : String) : String :=
  withoutFinalSlashes (String.ofList (text.toList.reverse.dropWhile (· != '/')).reverse)

/-- What follows the last slash of a path, as it was given. -/
def nameText (text : String) : String :=
  String.ofList (text.toList.reverse.takeWhile (· != '/')).reverse

/-- Taking slashes away makes no text longer. -/
theorem length_withoutFinalSlashes (text : String) :
    (withoutFinalSlashes text).length ≤ text.length := by
  simp only [withoutFinalSlashes]
  split
  · exact Nat.le_refl _
  · have := (List.dropWhile_sublist (· == '/') (l := text.toList.reverse)).length_le
    simpa [← String.length_toList] using this

/-- A path is at least as long as its directory and its name together. -/
theorem length_directoryText_add_nameText (text : String) :
    (directoryText text).length + (nameText text).length ≤ text.length := by
  have cut := congrArg List.length
    (List.takeWhile_append_dropWhile (p := (· != '/')) (l := text.toList.reverse))
  have directory := length_withoutFinalSlashes
    (String.ofList (text.toList.reverse.dropWhile (· != '/')).reverse)
  simp only [List.length_append, List.length_reverse, String.length_toList,
    String.length_ofList] at cut directory
  simp only [directoryText, nameText, String.length_ofList, List.length_reverse]
  omega

/-- A path, as it was given, cut into the directory that it stands in and its name.
Slashes at its end do not count, as long as there is a name before them. -/
def splitText (text : String) : String × String :=
  let cut := if nameText text = "" then directoryText text else text
  (directoryText cut, nameText cut)

/-- The two parts of a path are no longer than the path. -/
theorem length_splitText (text : String) :
    (splitText text).1.length + (splitText text).2.length ≤ text.length := by
  have whole := length_directoryText_add_nameText text
  have inside := length_directoryText_add_nameText (directoryText text)
  simp only [splitText]
  split <;> omega

/-- The directory around a path with a name is shorter than the path. -/
theorem length_splitText_lt {text : String} (named : (splitText text).2 ≠ "") :
    (splitText text).1.length < text.length := by
  have whole := length_splitText text
  have nonempty : (splitText text).2.length ≠ 0 :=
    fun none => named (String.length_eq_zero_iff.mp none)
  omega

end Path

end TapeLab
