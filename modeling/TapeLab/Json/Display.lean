import TapeLab.Json.Value
import TapeLab.Number.Shortest
import TapeLab.Text.Quoted

/-!
# Showing JSON values

The form in which a value is shown on a console: a text as it is, anything else as
a literal, in which texts are quoted and lists and records have their brackets.
-/

namespace TapeLab.Json

open TapeLab.Number

mutual

/-- A value as a literal. -/
def Value.literal : Value → String
  | .null => "None"
  | .bool value => if value then "True" else "False"
  | .integer value => toString value
  | .float value => value.text displayLayout
  | .text value => Text.quoted value
  | .list items => "[" ++ String.intercalate ", " (literals items) ++ "]"
  | .record fields => "\x7b" ++ String.intercalate ", " (fieldLiterals fields) ++ "\x7d"

/-- Values as literals. -/
def literals : List Value → List String
  | [] => []
  | item :: rest => item.literal :: literals rest

/-- Fields as literals, each name with its value. -/
def fieldLiterals : List (String × Value) → List String
  | [] => []
  | (key, value) :: rest => (Text.quoted key ++ ": " ++ value.literal) :: fieldLiterals rest

end

/-- A value as it is shown by itself. -/
def Value.display : Value → String
  | .text value => value
  | value => value.literal

end TapeLab.Json
