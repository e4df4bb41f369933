import TapeLab.Json.Display
import TapeLab.Number.Reading
import TapeLab.Text.Numeral

/-!
# Questions

A question is put until an answer can be used.  An empty answer takes the default, if
the question has one; any other is read without the blanks around it.
-/

namespace TapeLab.Console

open Json

/-- A question: its text, and what an answer means, or what to say to an answer that
means nothing. -/
structure Question (α : Type) where
  text : String
  read : String → Except String α

namespace Question

/-- What is said to an answer that is no whole number. -/
def wholeNumberComplaint : String := "[prompt.invalid]Please enter a valid integer number"

/-- What is said to an answer that is no number. -/
def numberComplaint : String := "[prompt.invalid]Please enter a number"

/-- What is said to an answer that is none of the choices. -/
def choiceComplaint : String := "[prompt.invalid.choice]Please select one of the available options"

/-- What is said to an answer that is neither yes nor no. -/
def yesNoComplaint : String := "[prompt.invalid]Please enter Y or N"

/-- A character that would move the cursor of a console or ring its bell. -/
def isControl (c : Char) : Bool :=
  c == '\x07' || c == '\x08' || c == '\x0b' || c == '\x0c' || c == '\r'

/-- The text of a question with its choices and its default, as far as those are shown.
No part of it can move the cursor back. -/
def shown (words : String) (choices : List String) (fallback : Option String) : String :=
  let offered := if choices.isEmpty then "" else " [" ++ String.intercalate "/" choices ++ "]"
  let assumed := match fallback with
    | some value => " (" ++ value ++ ")"
    | none => ""
  let text := words ++ offered ++ assumed ++ ": "
  String.ofList (text.toList.filter fun c => !isControl c)

/-- A question for any text. -/
def anyText (words : String) : Question String where
  text := shown words [] none
  read := fun answer => .ok (Text.trimmed answer)

/-- A question for any text, with a default. -/
def anyTextOr (words fallback : String) : Question String where
  text := shown words [] (some fallback)
  read := fun answer => .ok (if answer.isEmpty then fallback else Text.trimmed answer)

/-- A question for one of some choices, with a default. -/
def choiceOr (words : String) (choices : List String) (fallback : String) : Question String where
  text := shown words choices (some fallback)
  read := fun answer =>
    if answer.isEmpty then .ok fallback
    else if choices.contains (Text.trimmed answer) then .ok (Text.trimmed answer)
    else .error choiceComplaint

/-- A question for a whole number.  The default may be a truth value, which counts
for a number. -/
def wholeNumberOr (words : String) (fallback : Value) : Question Value where
  text := shown words [] (if fallback.kind.passesFor .integer then some fallback.display else none)
  read := fun answer =>
    if answer.isEmpty then .ok fallback
    else
      match Text.integer? (Text.trim answer.toList) with
      | some value => .ok (.integer value)
      | none => .error wholeNumberComplaint

/-- A question for a number.  A default that is a whole number is not shown. -/
def numberOr (words : String) (fallback : Value) : Question Value where
  text := shown words [] (if fallback.kind == .float then some fallback.display else none)
  read := fun answer =>
    if answer.isEmpty then .ok fallback
    else
      match Number.Binary64.read? answer.toList with
      | some value => .ok (.float value)
      | none => .error numberComplaint

/-- A question for yes or no. -/
def yesNoOr (words : String) (fallback : Bool) : Question Bool where
  text := shown words ["y", "n"] (some (if fallback then "y" else "n"))
  read := fun answer =>
    if answer.isEmpty then .ok fallback
    else
      match (Text.trimmed answer).toLower with
      | "y" => .ok true
      | "n" => .ok false
      | _ => .error yesNoComplaint

/-- Put a question to someone with some answers left: the complaints about those that
cannot be used, and, unless the answers run out, what was meant and the answers then
left. -/
def ask {α : Type} (question : Question α) :
    List String → List String × Option (α × List String)
  | [] => ([], none)
  | answer :: rest =>
    match question.read answer with
    | .ok meaning => ([], some (meaning, rest))
    | .error complaint =>
      let (complaints, found) := question.ask rest
      (complaint :: complaints, found)

/-- An answer that was used is one of those that were left. -/
theorem ask_shorter {α : Type} {question : Question α} {answers rest : List String}
    {meaning : α} (found : (question.ask answers).2 = some (meaning, rest)) :
    rest.length < answers.length := by
  induction answers with
  | nil => simp [ask] at found
  | cons answer later inductionHypothesis =>
    unfold ask at found
    split at found
    · simp only [Option.some.injEq, Prod.mk.injEq] at found
      simp [found.2]
    · have := inductionHypothesis found
      simp only [List.length_cons]
      omega

end Question

end TapeLab.Console
