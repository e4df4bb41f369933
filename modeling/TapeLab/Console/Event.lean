import TapeLab.Json.Value
import TapeLab.Text.Markup

/-!
# Console events

What a session does on its console, in the order in which it happens.  How a line or
a table looks is the console's affair; an event holds what was asked of it.
-/

namespace TapeLab.Console

/-- On which side of its column a text stands. -/
inductive Side where
  | left
  | center
  | right
  deriving DecidableEq, Repr

/-- The word for a side. -/
def Side.word : Side → String
  | .left => "left"
  | .center => "center"
  | .right => "right"

/-- A column of a table. -/
structure Column where
  header : String
  side : Side := .left
  deriving DecidableEq, Repr

/-- A row of a table, all of it perhaps in a style. -/
structure Row where
  cells : List String
  style : Option String := none
  deriving DecidableEq, Repr

/-- A table. -/
structure Sheet where
  title : Option String := none
  columns : List Column
  rows : List Row
  deriving DecidableEq, Repr

/-- What happens on a console. -/
inductive Event where
  /-- A line in which style tags count. -/
  | line (text : String)
  /-- Lines in one style, in which tags do not count. -/
  | picture (text style : String)
  /-- A table. -/
  | sheet (sheet : Sheet)
  /-- A pause of some seconds. -/
  | pause (seconds : Json.Value)
  /-- A question, after which an answer is waited for. -/
  | question (text : String)
  /-- What is said to an answer that cannot be used. -/
  | complaint (text : String)
  deriving Repr

namespace Event

/-- The texts of an event in which style tags count: a table's title and columns and
cells, and every line that is no picture and no question. -/
def markedUp : Event → List String
  | .line text => [text]
  | .complaint text => [text]
  | .sheet shown =>
    shown.title.toList ++ shown.columns.map Column.header ++ shown.rows.flatMap Row.cells
  | _ => []

/-- The style tags that take effect in an event. -/
def activeTags (event : Event) : List String :=
  event.markedUp.flatMap Text.activeTags

end Event

end TapeLab.Console
