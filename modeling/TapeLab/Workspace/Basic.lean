import TapeLab.Fault
import TapeLab.Workspace.Path

/-!
# Workspaces

The files and directories that the laboratory works on, and what a path leads to.
A path is followed from the top or from the current directory, piece by piece;
every piece but the last must lead to a directory.

Where a file would be written or a directory made, the storage may refuse.  A
workspace therefore carries the refusals to come, so that whatever is said of all
workspaces is said of storage that fails at any point.
-/

namespace TapeLab

/-- A place: the names from the top down to it. -/
abbrev Location := List String

/-- What can be at a place. -/
inductive Entry where
  | file (bytes : ByteArray)
  | directory

/-- The files and directories, and the directory that paths begin in.  The next
change is refused if the first of the refusals says so; when none is left, no change
is refused. -/
structure Workspace where
  current : Location := ["work"]
  entries : List (Location × Entry) := []
  refusals : List Bool := []

namespace Workspace

/-- The greatest length of a name, in bytes. -/
def nameLimit : Nat := 255

/-- The length from which a path is too long, in bytes. -/
def pathLimit : Nat := 4096

/-- What is at a place.  The current directory and those around it always exist. -/
def entryAt? (place : Location) (workspace : Workspace) : Option Entry :=
  if place.isPrefixOf workspace.current then some .directory
  else (workspace.entries.find? fun entry => entry.1 == place).map Prod.snd

/-- Entries after one was put at a place, where it replaces what was there. -/
def putEntry (place : Location) (entry : Entry) :
    List (Location × Entry) → List (Location × Entry)
  | [] => [(place, entry)]
  | (other, old) :: rest =>
    if other == place then (other, entry) :: rest else (other, old) :: putEntry place entry rest

/-- The workspace after something was put at a place. -/
def put (place : Location) (entry : Entry) (workspace : Workspace) : Workspace :=
  { workspace with entries := putEntry place entry workspace.entries }

/-- Follow pieces of a path from a place. -/
def follow (workspace : Workspace) : Location → List String → Except StorageCause Location
  | place, [] => .ok place
  | place, piece :: rest =>
    match workspace.entryAt? place with
    | none => .error .missing
    | some (.file _) => .error .notDirectory
    | some .directory =>
      if piece == "" || piece == "." then workspace.follow place rest
      else if piece == ".." then workspace.follow place.dropLast rest
      else if nameLimit < piece.utf8ByteSize then .error .nameTooLong
      else workspace.follow (place ++ [piece]) rest

/-- The place that a path begins in, if there could be anything at such a path. -/
def origin (path : String) (workspace : Workspace) : Except StorageCause Location :=
  if path.toList.contains '\x00' then .error .nullInName
  else if pathLimit ≤ path.utf8ByteSize then .error .nameTooLong
  else if path.isEmpty then .error .missing
  else .ok (if path.startsWith "/" then [] else workspace.current)

/-- The place that a path leads to.  There need be nothing at that place, but all
that stands before it is there. -/
def locate (path : String) (workspace : Workspace) : Except StorageCause Location := do
  workspace.follow (← workspace.origin path) (pathPieces path)

/-- The place at which a path would have a directory made: slashes at its end do not
count. -/
def locateNew (path : String) (workspace : Workspace) : Except StorageCause Location := do
  workspace.follow (← workspace.origin path) (pathPieces (Path.withoutFinalSlashes path))

/-- The directory in which that place would be. -/
def locateAround (path : String) (workspace : Workspace) : Except StorageCause Location := do
  let pieces := (pathPieces (Path.withoutFinalSlashes path)).dropLast
  workspace.follow (← workspace.origin path) (pieces ++ ["."])

/-- What a path leads to. -/
def entry (path : String) (workspace : Workspace) : Except StorageCause Entry := do
  match workspace.entryAt? (← workspace.locate path) with
  | some found => return found
  | none => throw .missing

/-- Whether a path leads to anything. -/
def has (path : String) (workspace : Workspace) : Bool :=
  (workspace.entry path).toOption.isSome

/-- The names of the files in a directory. -/
def fileNames (place : Location) (workspace : Workspace) : List String :=
  workspace.entries.filterMap fun (other, entry) =>
    match entry with
    | .directory => none
    | .file _ =>
      match other.getLast? with
      | some name => if other == place ++ [name] then some name else none
      | none => none

/-- What was put is at its place, and elsewhere nothing changed. -/
theorem find?_putEntry (place other : Location) (entry : Entry)
    (entries : List (Location × Entry)) :
    ((putEntry place entry entries).find? fun found => found.1 == other) =
      if place = other then some (place, entry)
      else entries.find? fun found => found.1 == other := by
  induction entries with
  | nil => by_cases same : place = other <;> simp [putEntry, same]
  | cons first rest inductionHypothesis =>
    obtain ⟨here, old⟩ := first
    by_cases replaced : here = place
    · subst replaced
      by_cases same : here = other <;> simp [putEntry, same]
    · by_cases same : place = other
      · subst same
        simp [putEntry, replaced, inductionHypothesis]
      · simp [putEntry, replaced, List.find?_cons, inductionHypothesis, same]

/-- Putting something at a place is seen there and nowhere else. -/
theorem entryAt?_put (place other : Location) (entry : Entry) (workspace : Workspace)
    (inside : place.isPrefixOf workspace.current = false) :
    (workspace.put place entry).entryAt? other =
      if place = other then some entry else workspace.entryAt? other := by
  by_cases same : place = other
  · subst same
    simp [put, entryAt?, inside, find?_putEntry]
  · simp [put, entryAt?, find?_putEntry, same]

end Workspace

end TapeLab
