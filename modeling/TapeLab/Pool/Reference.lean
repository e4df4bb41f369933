import TapeLab.Pool.Run

/-!
# Pools one machine at a time

What a pool run comes to, told without batches and buffers: each pending machine is
looked at by itself, in the workspace as it was before the run.
-/

namespace TapeLab.Pool

/-- What becomes of one machine of a pool. -/
inductive Solo where
  | failed (fault : Fault)
  | ruleless
  | recorded (record : RunRecord)
  deriving DecidableEq, Repr

/-- What becomes of the machine of a path. -/
def solo (plan : Plan) (workspace : Workspace) (path : String) : Solo :=
  match ((outcome plan path).run workspace).1 with
  | .error fault => .failed fault
  | .ok (_, none) => .ruleless
  | .ok (definition, some config) =>
    .recorded (RunRecord.ofRun path definition config plan.moment)

namespace Solo

/-- The record of a machine that was run. -/
def record? : Solo → Option RunRecord
  | .recorded record => some record
  | _ => none

/-- Whether the machine could be read, with or without rules. -/
def isCompleted : Solo → Bool
  | .failed _ => false
  | _ => true

end Solo

/-- The records of runs that stood at a status at their end. -/
def recordsWith (status : Status) (records : List RunRecord) : List RunRecord :=
  records.filter fun record => record.status == status

/-- The lines of records. -/
def recordLines (records : List RunRecord) : String :=
  String.join (records.map fun record => Journal.line record.value)

/-- The lines that a pool run adds to the list of machines that did not end. -/
def promotedLines (records : List RunRecord) : String :=
  String.join ((recordsWith .running records).map fun record => record.machine ++ "\n")

end TapeLab.Pool
