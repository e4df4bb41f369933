import TapeLab.Journal
import TapeLab.Proofs.Workspace.Held

/-!
# Adding to a journal's file

Entries that are added to a file stand in it after what it held, one line each, and no other file
changes.
-/

namespace TapeLab.Journal

open Fallible Json Workspace

variable {path : String} {workspace : Workspace}

/-- Adding entries changes their file alone. -/
theorem addAll_changesOnly (path : String) (entries : List Value) :
    Relates (ChangesOnly [path]) (addAll path entries) :=
  (rewrite_changesOnly path id).bind fun _ => Relates.forM fun _ _ => rewrite_changesOnly path _

/-- A file that entries are added to holds them after what it held. -/
theorem held?_of_addAll {entries : List Value}
    (succeeds : ((addAll path entries).run workspace).1 = .ok ()) :
    ((addAll path entries).run workspace).2.held? path =
      some ((workspace.held? path).getD ByteArray.empty ++
        Text.encode (String.join (entries.map line))) := by
  have visible : ∀ entry, line entry ≠ "" := by simp [line]
  obtain ⟨_, touched, touching, later⟩ := exists_of_bind_ok succeeds
  rw [show (addAll path entries).run workspace = _ from later] at succeeds ⊢
  have shows := shows_of_rewrite (show ((touch path).run workspace).1 = .ok () by rw [touching])
  rw [show (rewrite path id).run workspace = _ from touching] at shows
  rw [held?_of_forM_append visible succeeds, shows.held?_eq, grown_some]
  rfl

end TapeLab.Journal
