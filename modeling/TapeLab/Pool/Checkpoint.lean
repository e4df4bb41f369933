import TapeLab.Pool.Basic
import TapeLab.Settings.File

/-!
# Checkpoints

Which paths of a pool are completed, kept in a file between runs.  What stands there
is normally a list of paths.  Whatever else stands there is searched as far as it can
be searched, but only a list can be added to.
-/

namespace TapeLab.Pool

open Json

/-- The name under which completed paths are kept. -/
def completedKey : String := "completed"

/-- What a checkpoint's text tells of the completed paths. -/
def completedOf (path text : String) : Except Fault Value :=
  match Settings.storedValue usualRoom path text with
  | .error fault => .error fault
  | .ok (.record fields) => .ok ((Keyed.get? fields completedKey).getD (.list []))
  | .ok _ => .error (.data .notRecord)

/-- What a pool's checkpoint tells of the completed paths; a pool without one has
none. -/
def loadCompleted (plan : Plan) : Storage Value := do
  match ← Workspace.look plan.checkpointFile with
  | none => return .list []
  | some _ =>
    let text ← Workspace.readText plan.checkpointFile
    liftExcept (completedOf plan.checkpointFile text)

/-- Keep what is completed. -/
def saveCompleted (plan : Plan) (completed : Value) : Storage Unit := do
  Workspace.truncate plan.checkpointFile
  Workspace.append plan.checkpointFile (Value.record [(completedKey, completed)]).indented

/-- Whether a value is a path. -/
def isPath (path : String) : Value → Bool
  | .text other => other == path
  | _ => false

/-- Whether a path is among the completed. -/
def isCompleted (completed : Value) (path : String) : Except DataFault Bool :=
  match completed with
  | .list items => .ok (items.any (isPath path))
  | .text content => .ok (Source.occursIn path.toList content.toList)
  | .record fields => .ok (fields.any fun field => field.1 == path)
  | _ => .error .notSearchable

/-- The paths that are not completed, in order. -/
def pendingOf (completed : Value) : List String → Except DataFault (List String)
  | [] => .ok []
  | path :: rest => do
    let done ← isCompleted completed path
    let later ← pendingOf completed rest
    return if done then later else path :: later

/-- The completed paths with one more. -/
def addCompleted (path : String) : Value → Except DataFault Value
  | .list items => .ok (.list (items ++ [.text path]))
  | _ => .error .notExtensible

end TapeLab.Pool
