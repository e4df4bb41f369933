import TapeLab.Json.Value
import TapeLab.Machine.TapeText
import TapeLab.Moment

/-!
# Run records

What is kept of one run of a machine: which machine it was, how the run ended, and
when.
-/

namespace TapeLab

/-- The record of a run that ended in a configuration. -/
structure RunRecord where
  machine : String
  dialect : Dialect
  rules : Nat
  skippedLines : Nat
  initialState : StateName
  finalState : StateName
  status : Status
  steps : Nat
  head : Nat
  tape : String
  missing : Option MissingRule
  moment : Moment
  deriving DecidableEq, Repr

namespace RunRecord

/-- The record of a machine's run under a name. -/
def ofRun (name : String) (definition : Definition) (config : Config) (moment : Moment) :
    RunRecord where
  machine := name
  dialect := definition.dialect
  rules := definition.rules.length
  skippedLines := definition.problems.length
  initialState := definition.start
  finalState := config.state
  status := config.status
  steps := config.steps
  head := config.head
  tape := tapeText config.tape.toList definition.blank
  missing := config.missing
  moment := moment

/-- The fields of a record as they are stored. -/
def fields (record : RunRecord) : Json.Fields :=
  [("machine", .text record.machine),
   ("syntax", .text record.dialect.name),
   ("rules", .integer record.rules),
   ("skipped_lines", .integer record.skippedLines),
   ("initial_state", .text record.initialState),
   ("final_state", .text record.finalState),
   ("status", .text record.status.word),
   ("steps", .integer record.steps),
   ("head", .integer record.head),
   ("tape", .text record.tape),
   ("error", match record.missing with
      | some missing => .text missing.message
      | none => .null),
   ("timestamp", .text record.moment.timestamp)]

/-- A record as a stored value. -/
def value (record : RunRecord) : Json.Value :=
  .record record.fields

end RunRecord

end TapeLab
