import TapeLab.Keyed
import TapeLab.Number.Binary64

/-!
# JSON values

The values that settings, run records and checkpoints are made of.  Whole numbers
are exact and of any size, and the fields of a record keep the order in which they
were first put there.
-/

namespace TapeLab.Json

open TapeLab.Number

/-- A JSON value. -/
inductive Value where
  | null
  | bool (value : Bool)
  | integer (value : Int)
  | float (value : Binary64)
  | text (value : String)
  | list (items : List Value)
  | record (fields : List (String × Value))
  deriving Repr, Inhabited, BEq

/-- The fields of a record, in order. -/
abbrev Fields := Keyed String Value

/-- The kinds of JSON values. -/
inductive Kind where
  | null
  | bool
  | integer
  | float
  | text
  | list
  | record
  deriving DecidableEq, Repr

/-- The kind of a value. -/
def Value.kind : Value → Kind
  | .null => .null
  | .bool _ => .bool
  | .integer _ => .integer
  | .float _ => .float
  | .text _ => .text
  | .list _ => .list
  | .record _ => .record

/-- The name under which a kind is reported. -/
def Kind.name : Kind → String
  | .null => "<class 'NoneType'>"
  | .bool => "<class 'bool'>"
  | .integer => "<class 'int'>"
  | .float => "<class 'float'>"
  | .text => "<class 'str'>"
  | .list => "<class 'list'>"
  | .record => "<class 'dict'>"

/-- A kind passes for another: a truth value passes for a whole number. -/
def Kind.passesFor (found expected : Kind) : Bool :=
  found == expected || (found == .bool && expected == .integer)

/-- The number that a value counts for: a truth value is one or zero. -/
def Value.wholeNumber? : Value → Option Int
  | .integer value => some value
  | .bool value => some (if value then 1 else 0)
  | _ => none

/-- What a value holds, one by one: the items of a list, the characters of a text,
the names of a record's fields. -/
def Value.elements? : Value → Option (List Value)
  | .list items => some items
  | .text content => some (content.toList.map fun c => .text (String.singleton c))
  | .record fields => some (fields.map fun field => .text field.1)
  | _ => none

mutual

/-- How many lists and records stand in one another in a value. -/
def Value.depth : Value → Nat
  | .list items => depthOfItems items + 1
  | .record fields => depthOfFields fields + 1
  | _ => 0

/-- How deep the deepest of some items is. -/
def depthOfItems : List Value → Nat
  | [] => 0
  | item :: rest => max item.depth (depthOfItems rest)

/-- How deep the deepest value of some fields is. -/
def depthOfFields : List (String × Value) → Nat
  | [] => 0
  | (_, value) :: rest => max value.depth (depthOfFields rest)

end

/-- How deep a value may be nested that is read or written, unless something else is said. -/
def usualRoom : Nat := 990

end TapeLab.Json
