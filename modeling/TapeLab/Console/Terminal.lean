import TapeLab.Json.Value
import TapeLab.Text.Markup

/-!
# Terminals

What a session is shown on and waits by: a console that gives texts the styles of their
tags, and a clock.  Neither is part of the laboratory, so a session is written for any
`Terminal`.  A terminal may refuse what it is asked, and no session goes on after that.
-/

namespace TapeLab.Console

/-- A console and a clock. -/
class Terminal where
  /-- What they fail with. -/
  Failure : Type
  /-- What is written for a text from outside, so that its tags mean nothing. -/
  escape : String → String
  /-- Why a text in which tags count cannot be shown, if it cannot. -/
  refusal? : String → Option Failure
  /-- Why a pause of some seconds cannot be made, if it cannot. -/
  pauseRefusal? : Json.Value → Option Failure

namespace Terminal

/-- No tag is active in what is written for a text from outside. -/
def Disarms [Terminal] : Prop :=
  ∀ text, Text.activeTags (escape text) = []

/-- Every text is shown whose tags are styles and nest. -/
def ShowsNested [Terminal] : Prop :=
  ∀ text, Text.nests text = true → refusal? text = none

/-- A terminal that only keeps a record of what it is asked, and refuses nothing. -/
@[reducible]
def recorder : Terminal where
  Failure := Empty
  escape := Text.escape
  refusal? _ := none
  pauseRefusal? _ := none

/-- What a strict terminal fails with. -/
inductive StrictFailure where
  /-- A text has a tag that closes none, or one that is no style. -/
  | unmatchedTag (text : String)
  /-- A pause is below zero, or longer than the clock can count. -/
  | uncountable (seconds : Json.Value)
  deriving Repr

/-- The longest pause of a clock that counts nanoseconds in 63 bits, in whole seconds. -/
def longestPause : Nat := 9223372036

/-- Whether a clock can count some seconds. -/
def countable : Json.Value → Bool
  | .bool _ => true
  | .integer seconds => 0 ≤ seconds && seconds ≤ longestPause
  | .float (.finite negative significand exponent) =>
    (!negative || significand == 0) &&
      significand * Number.twoTo exponent.toNat ≤ longestPause * Number.twoTo (-exponent).toNat
  | _ => false

/-- A terminal that shows a text only if its tags nest, and pauses only for as long as it
can count. -/
@[reducible]
def strict : Terminal where
  Failure := StrictFailure
  escape := Text.escape
  refusal? text := if Text.nests text then none else some (.unmatchedTag text)
  pauseRefusal? seconds := if countable seconds then none else some (.uncountable seconds)

end Terminal

end TapeLab.Console
