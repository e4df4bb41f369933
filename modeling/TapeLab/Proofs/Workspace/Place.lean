import TapeLab.Workspace.Basic

/-!
# Where paths lead

What stands in a workspace decides whether a path leads anywhere, but not where: that
follows from the path and the current directory.  `placeOf` is this place.  So two paths
can be told apart once and for all, whatever is written or made later.
-/

namespace TapeLab.Workspace

/-- Where the pieces of a path lead from a place, if all on the way is there. -/
def descend : Location → List String → Location
  | place, [] => place
  | place, piece :: rest =>
    if piece == "" || piece == "." then descend place rest
    else if piece == ".." then descend place.dropLast rest
    else descend (place ++ [piece]) rest

/-- The place of a path. -/
def placeOf (path : String) (workspace : Workspace) : Location :=
  descend (if path.startsWith "/" then [] else workspace.current) (pathPieces path)

/-- What pieces are followed to is where they lead. -/
theorem eq_descend_of_follow {workspace : Workspace} {place found : Location}
    {pieces : List String} (followed : workspace.follow place pieces = .ok found) :
    found = descend place pieces := by
  induction pieces generalizing place with
  | nil =>
      simp only [follow, Except.ok.injEq] at followed
      exact followed.symm
  | cons piece rest inductionHypothesis =>
      simp only [follow] at followed
      split at followed
      · cases followed
      · cases followed
      · simp only [descend]
        split at followed
        · next skipped =>
          rw [if_pos skipped]
          exact inductionHypothesis followed
        · next kept =>
          rw [if_neg kept]
          split at followed
          · next upward =>
            rw [if_pos upward]
            exact inductionHypothesis followed
          · next downward =>
            rw [if_neg downward]
            split at followed
            · cases followed
            · exact inductionHypothesis followed

/-- Where a path can begin is where its place is counted from. -/
theorem eq_of_origin {path : String} {workspace : Workspace} {start : Location}
    (begun : workspace.origin path = .ok start) :
    start = if path.startsWith "/" then [] else workspace.current := by
  simp only [origin] at begun
  split at begun
  · cases begun
  · split at begun
    · cases begun
    · split at begun
      · cases begun
      · exact (Except.ok.inj begun).symm

/-- A path that is followed begins somewhere, and its pieces lead on from there. -/
theorem locate_eq_ok_iff {path : String} {workspace : Workspace} {place : Location} :
    workspace.locate path = .ok place ↔
      ∃ start, workspace.origin path = .ok start ∧
        workspace.follow start (pathPieces path) = .ok place := by
  simp only [locate]
  cases workspace.origin path with
  | error cause => simp [bind, Except.bind]
  | ok start => simp [bind, Except.bind]

/-- A path that leads anywhere leads to its place. -/
theorem eq_placeOf {path : String} {workspace : Workspace} {place : Location}
    (located : workspace.locate path = .ok place) : place = workspace.placeOf path := by
  obtain ⟨start, begun, followed⟩ := locate_eq_ok_iff.mp located
  rw [eq_descend_of_follow followed, eq_of_origin begun]
  rfl

/-- The pieces that can be followed can still be followed when there are more
directories. -/
theorem follow_mono {before after : Workspace}
    (directories : ∀ place, before.entryAt? place = some .directory →
      after.entryAt? place = some .directory)
    {place found : Location} {pieces : List String}
    (followed : before.follow place pieces = .ok found) :
    after.follow place pieces = .ok found := by
  induction pieces generalizing place with
  | nil => simpa only [follow] using followed
  | cons piece rest inductionHypothesis =>
      simp only [follow] at followed ⊢
      split at followed
      · cases followed
      · cases followed
      · next stands =>
        simp only [directories place stands]
        split at followed
        · next skipped =>
          rw [if_pos skipped]
          exact inductionHypothesis followed
        · next kept =>
          rw [if_neg kept]
          split at followed
          · next upward =>
            rw [if_pos upward]
            exact inductionHypothesis followed
          · next downward =>
            rw [if_neg downward]
            split at followed
            · cases followed
            · next short =>
              rw [if_neg short]
              exact inductionHypothesis followed

/-- A path that leads to its place still does so when there are more directories. -/
theorem locate_mono {before after : Workspace} (current : after.current = before.current)
    (directories : ∀ place, before.entryAt? place = some .directory →
      after.entryAt? place = some .directory)
    {path : String} {place : Location} (located : before.locate path = .ok place) :
    after.locate path = .ok place := by
  obtain ⟨start, begun, followed⟩ := locate_eq_ok_iff.mp located
  have same : after.origin path = before.origin path := by
    simp only [origin, current]
  exact locate_eq_ok_iff.mpr ⟨start, same.trans begun, follow_mono directories followed⟩

end TapeLab.Workspace
