import TapeLab.Console.Question
import TapeLab.Session.Notice
import TapeLab.Settings.File

/-!
# Sessions

A session shows notices on a terminal, asks questions, and works in a workspace.  Its
`State` holds the answers that are still to come and everything that has happened
so far; a session that fails keeps the state it failed in.
-/

namespace TapeLab.Session

open Console

/-- What a session has come to.  The patience is the number of the pause, counted from
here, at which the user interrupts next.  Each interruption after that has its pause
counted from the interruption before it.  The settings are those that the session was
started with; a part of it that goes by others keeps them to itself. -/
structure State where
  workspace : Workspace
  answers : List String
  patience : Option Nat := none
  laterPatience : List Nat := []
  settings : Settings := Settings.defaults
  notices : Array Notice := #[]

/-- What has happened on a console that keeps a record. -/
def State.events (state : State) : Array Event :=
  state.notices.map (Notice.event Text.escape)

/-- Why a session breaks off: it cannot go on, or its terminal fails. -/
inductive Breakdown (Failure : Type) where
  | fault (reason : Fault)
  | terminal (failure : Failure)

/-- The fault that broke off a session on a terminal that cannot fail. -/
def Breakdown.onlyFault : Breakdown Empty → Fault
  | .fault reason => reason
  | .terminal failure => nomatch failure

end Session

/-- A part of a session on a terminal. -/
abbrev Session [Console.Terminal] :=
  ExceptT (Session.Breakdown Console.Terminal.Failure) (StateM Session.State)

namespace Session

open Console

variable [Terminal]

/-- Go on with a result, or break off with the fault that it is. -/
def settle {α : Type} (result : Except Fault α) : Session α :=
  liftExcept (result.mapError .fault : Except (Breakdown Terminal.Failure) α)

/-- Use the workspace of a session. -/
def onWorkspace {α : Type} (operation : Storage α) : Session α :=
  fun state =>
    let (result, workspace) := operation.run state.workspace
    (result.mapError Breakdown.fault, { state with workspace })

/-- Show a notice, if the terminal does not refuse it. -/
def say (notice : Notice) : Session Unit := do
  match notice.refusal? with
  | some failure => throw (.terminal failure)
  | none => modify fun state => { state with notices := state.notices.push notice }

/-- The notices of a question that was put again after every complaint. -/
def asking (text : String) (complaints : List String) : List Notice :=
  (complaints.flatMap fun complaint => [.question text, .complaint complaint]) ++
    [.question text]

/-- Ask a question until an answer can be used.  The question and the complaints are the
terminal's own way of asking, which it does not refuse. -/
def ask {α : Type} (question : Question α) : Session α := do
  let state ← get
  let (complaints, found) := question.ask state.answers
  let notices := state.notices ++ (asking question.text complaints).toArray
  match found with
  | some (meaning, answers) =>
    set { state with answers, notices }
    return meaning
  | none =>
    set { state with answers := [], notices }
    throw (.fault .answersExhausted)

/-- What an operation comes to, as long as its failure is one that is survived. -/
def attempt {α : Type} (survives : Fault → Bool) (operation : Storage α) :
    Session (Except Fault α) :=
  fun state =>
    let (result, workspace) := operation.run state.workspace
    let outcome := match result with
      | .ok value => .ok (.ok value)
      | .error fault => if survives fault then .ok (.error fault) else .error (.fault fault)
    (outcome, { state with workspace })

end Session

end TapeLab
