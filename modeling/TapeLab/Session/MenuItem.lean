/-!
# The items of the menu

What a session offers in its menu, and the digits by which it is chosen.
-/

namespace TapeLab.Session

/-- What the menu offers. -/
inductive MenuItem where
  | loadFile
  | loadExample
  | showTable
  | step
  | run
  | reset
  | showHistory
  | editSettings
  | leave
  deriving DecidableEq, Repr

namespace MenuItem

/-- The items in the order in which they are offered. -/
def all : List MenuItem :=
  [.loadFile, .loadExample, .showTable, .step, .run, .reset, .showHistory, .editSettings, .leave]

/-- The digit that chooses an item. -/
def key : MenuItem → String
  | .loadFile => "1"
  | .loadExample => "2"
  | .showTable => "3"
  | .step => "4"
  | .run => "5"
  | .reset => "6"
  | .showHistory => "7"
  | .editSettings => "8"
  | .leave => "9"

/-- The wording of an item. -/
def label : MenuItem → String
  | .loadFile => "Load Machine File"
  | .loadExample => "Load Example"
  | .showTable => "Show Transition Table"
  | .step => "Step"
  | .run => "Run"
  | .reset => "Reset"
  | .showHistory => "Show History"
  | .editSettings => "Edit Config"
  | .leave => "Exit"

/-- The item of a digit. -/
def ofKey? (key : String) : Option MenuItem :=
  all.find? fun item => item.key == key

/-- Whether an item does something with the machine on the bench. -/
def needsMachine : MenuItem → Bool
  | .showTable | .step | .run | .reset | .showHistory => true
  | _ => false

/-- Every item is chosen by its own digit. -/
theorem ofKey?_key (item : MenuItem) : ofKey? item.key = some item := by
  cases item <;> decide

end MenuItem

end TapeLab.Session
