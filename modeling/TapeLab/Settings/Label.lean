import TapeLab.Json.Display
import TapeLab.Json.Writer
import TapeLab.Keyed

/-!
# Labels

What settings stand under.  A record has texts for that; a list of pairs may use null,
truth values and numbers as well.  Numbers are one label when they are equal as
numbers, whole or not, and a truth value counts for one or zero.
-/

namespace TapeLab.Settings

open TapeLab.Json TapeLab.Number

/-- What a setting stands under. -/
inductive Label where
  | text (name : String)
  | null
  | bool (value : Bool)
  | integer (value : Int)
  | float (value : Binary64)
  deriving Repr

namespace Label

/-- What a label is, however it is written. -/
inductive Identity where
  | text (name : String)
  | null
  | number (value : Rat)
  | infinity (negative : Bool)
  | notANumber
  deriving DecidableEq

/-- What a floating-point number is as a label. -/
def identityOfFloat : Binary64 → Identity
  | .nan => .notANumber
  | .infinity negative => .infinity negative
  | .finite negative significand exponent =>
    .number (Binary64.ratio negative significand exponent)

/-- What a label is. -/
def identity : Label → Identity
  | .text name => .text name
  | .null => .null
  | .bool value => .number (Rat.ofInt (if value then 1 else 0))
  | .integer value => .number (Rat.ofInt value)
  | .float value => identityOfFloat value

instance : BEq Label where
  beq left right := decide (left.identity = right.identity)

/-- Labels count as one exactly when they are the same thing. -/
theorem beq_iff_identity_eq {left right : Label} :
    (left == right) = true ↔ left.identity = right.identity :=
  decide_eq_true_iff

instance : EquivBEq Label where
  rfl := beq_iff_identity_eq.mpr rfl
  symm same := beq_iff_identity_eq.mpr (beq_iff_identity_eq.mp same).symm
  trans first second :=
    beq_iff_identity_eq.mpr
      ((beq_iff_identity_eq.mp first).trans (beq_iff_identity_eq.mp second))

/-- Texts count as one label exactly when they are equal. -/
theorem text_beq_text {left right : String} :
    (Label.text left == Label.text right) = true ↔ left = right := by
  simp [beq_iff_identity_eq, identity]

/-- The value that a label is written as. -/
def value : Label → Value
  | .text name => .text name
  | .null => .null
  | .bool value => .bool value
  | .integer value => .integer value
  | .float value => .float value

/-- The label that a value is; lists and records cannot be one. -/
def ofValue? : Value → Option Label
  | .text name => some (.text name)
  | .null => some .null
  | .bool value => some (.bool value)
  | .integer value => some (.integer value)
  | .float value => some (.float value)
  | .list _ => none
  | .record _ => none

/-- A label as it is shown. -/
def shown (label : Label) : String :=
  label.value.display

/-- The name of the field in which a setting is stored: a text as it is, and anything
else as it is written as a value. -/
def fieldName : Label → String
  | .text name => name
  | label => label.value.compact

/-- A label is the value that it is written as. -/
theorem ofValue?_value (label : Label) : ofValue? label.value = some label := by
  cases label <;> rfl

end Label

end TapeLab.Settings
