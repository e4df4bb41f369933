import TapeLab.Text.Line
import TapeLab.Workspace.Basic

/-!
# Using a workspace

Reading, listing, writing and making directories.  An operation that fails keeps
every change made before it failed.  Opening a file for writing, adding to it and
making a directory are the changes that storage may refuse, each by itself.
-/

namespace TapeLab

/-- What uses a workspace and may fail, keeping what was done. -/
abbrev Storage := ExceptT Fault (StateM Workspace)

namespace Workspace

/-- Fail because of a path. -/
def fail {α : Type} (path : String) (cause : StorageCause) : Storage α :=
  throw (.storage ⟨cause, path⟩)

/-- A result, or the failure because of a path. -/
def orFail {α : Type} (path : String) : Except StorageCause α → Storage α
  | .ok found => pure found
  | .error cause => fail path cause

/-- What a path leads to, if it leads anywhere.  A path that no file could have is
a failure only if it is too long. -/
def look (path : String) : Storage (Option Entry) := do
  match (← get).entry path with
  | .ok found => return some found
  | .error .nameTooLong => fail path .nameTooLong
  | .error _ => return none

/-- Whether a path leads to a directory. -/
def isDirectory (path : String) : Storage Bool := do
  match ← look path with
  | some .directory => return true
  | _ => return false

/-- The bytes of a file. -/
def readBytes (path : String) : Storage ByteArray := do
  match ← orFail path ((← get).entry path) with
  | .file bytes => return bytes
  | .directory => fail path .isDirectory

/-- A file as text, in which only line feeds end lines. -/
def readText (path : String) : Storage String := do
  match Text.decode (← readBytes path) with
  | .ok text => return String.ofList (Text.foldReturns text.toList)
  | .error fault => throw (.notUtf8 fault)

/-- The names of the files in a directory, sorted. -/
def listFiles (directory : String) : Storage (List String) := do
  let workspace ← get
  let place ← orFail directory (workspace.locate directory)
  return (workspace.fileNames place).mergeSort fun left right => decide (left ≤ right)

/-- Let the storage refuse the change that is about to happen. -/
def mayRefuse (path : String) : Storage Unit := do
  let workspace ← get
  match workspace.refusals with
  | [] => return
  | refused :: later =>
    set { workspace with refusals := later }
    if refused then fail path .refused

/-- Put something at a place, unless the storage refuses. -/
def change (path : String) (place : Location) (entry : Entry) : Storage Unit := do
  mayRefuse path
  modify (put place entry)

/-- The place of a file to be written.  A path that ends in a slash names a directory,
whether there is one or not. -/
def placeToWrite (path : String) : Storage Location := do
  let workspace ← get
  if path.endsWith "/" then
    discard (orFail path (workspace.locateAround path))
    fail path .isDirectory
  let place ← orFail path (workspace.locate path)
  match workspace.entryAt? place with
  | some .directory => fail path .isDirectory
  | _ => return place

/-- What a file holds, if there is one. -/
def contents (place : Location) (workspace : Workspace) : ByteArray :=
  match workspace.entryAt? place with
  | some (.file bytes) => bytes
  | _ => ByteArray.empty

/-- Write a file: what is made of what it holds. -/
def rewrite (path : String) (made : ByteArray → ByteArray) : Storage Unit := do
  let place ← placeToWrite path
  change path place (.file (made ((← get).contents place)))

/-- Begin a file anew, with nothing in it. -/
def truncate (path : String) : Storage Unit :=
  rewrite path fun _ => ByteArray.empty

/-- Make sure that there is a file to add to. -/
def touch (path : String) : Storage Unit :=
  rewrite path id

/-- Add text at the end of a file. -/
def append (path text : String) : Storage Unit :=
  rewrite path fun bytes => bytes ++ Text.encode text

/-- Make one directory, unless it is there. -/
def makeDirectory (path : String) : Storage Unit := do
  let workspace ← get
  let place ← orFail path (workspace.locateNew path)
  match workspace.entryAt? place with
  | none => change path place .directory
  | some .directory => return
  | some (.file _) => fail path .alreadyExists

/-- Make the directory whose path has the given parts, innermost first.  What is around
it is made only if some of that is missing. -/
def makeInnermost (top : String) : List String → Storage Unit
  | [] => makeDirectory (Path.text { top, parts := [] })
  | part :: around => do
    let path := Path.text { top, parts := (part :: around).reverse }
    match (← get).locateNew path with
    | .error .missing =>
      makeInnermost top around
      makeDirectory path
    | _ => makeDirectory path

/-- Make a directory and all that is missing around it. -/
def makeDirectories (path : Path) : Storage Unit :=
  makeInnermost path.top path.parts.reverse

/-- Make something, or leave it when something else is already there. -/
def unlessPresent (make : Storage Unit) : Storage Unit := do
  try make
  catch
    | .storage ⟨.alreadyExists, _⟩ => return
    | fault => throw fault

/-- Make a directory and all that is missing around it, by the texts of their paths.  A
single dot after a directory that was missing stands for that directory.  A file where
one of the directories around it should be is no failure by itself: what is to be made
inside that file fails. -/
def makeDirectoriesAt (path : String) : Storage Unit := do
  let workspace ← get
  let around := (Path.splitText path).1
  let name := (Path.splitText path).2
  if missing : around ≠ "" ∧ name ≠ "" ∧ workspace.has around = false then
    have := Path.length_splitText_lt missing.2.1
    unlessPresent (makeDirectoriesAt around)
    if name = "." then return () else makeDirectory path
  else makeDirectory path
termination_by path.length

end Workspace

end TapeLab
