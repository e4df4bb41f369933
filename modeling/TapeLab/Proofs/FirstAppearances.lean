import Mathlib.Data.List.Basic

/-!
# First appearances

The names of a sequence are listed without repetitions, each where it first appears
(`ListsFirsts.eraseDups`).
-/

namespace TapeLab

variable {α : Type} [BEq α] {sequence listed : List α}

/-- The names of a sequence, each of them once, in the order in which they first appear there. -/
structure ListsFirsts (sequence listed : List α) : Prop where
  mem_iff : ∀ name, name ∈ listed ↔ name ∈ sequence
  nodup : listed.Nodup
  inOrder : listed.Pairwise fun earlier later => sequence.idxOf earlier < sequence.idxOf later

variable [LawfulBEq α]

/-- Names that are kept when others are left out first appear in the order in which they did. -/
theorem idxOf_lt_of_filter {keeps : α → Bool} {earlier later : α}
    (earlierKept : keeps earlier = true) (laterKept : keeps later = true)
    (lt : (sequence.filter keeps).idxOf earlier < (sequence.filter keeps).idxOf later) :
    sequence.idxOf earlier < sequence.idxOf later := by
  induction sequence with
  | nil => exact lt
  | cons name rest inductionHypothesis =>
      by_cases kept : keeps name = true
      · rw [List.filter_cons_of_pos kept] at lt
        by_cases second : name = later
        · rw [second, List.idxOf_cons_self] at lt
          exact absurd lt (Nat.not_lt_zero _)
        · rw [List.idxOf_cons_ne _ second] at lt ⊢
          by_cases first : name = earlier
          · rw [first, List.idxOf_cons_self]
            exact Nat.succ_pos _
          · rw [List.idxOf_cons_ne _ first] at lt ⊢
            exact Nat.succ_lt_succ (inductionHypothesis (Nat.lt_of_succ_lt_succ lt))
      · have first : name ≠ earlier := fun same => kept (same ▸ earlierKept)
        have second : name ≠ later := fun same => kept (same ▸ laterKept)
        rw [List.filter_cons_of_neg kept] at lt
        rw [List.idxOf_cons_ne _ first, List.idxOf_cons_ne _ second]
        exact Nat.succ_lt_succ (inductionHypothesis lt)

/-- Without its repetitions a sequence is in the order of first appearances. -/
theorem pairwise_idxOf_eraseDups (sequence : List α) :
    sequence.eraseDups.Pairwise fun earlier later =>
      sequence.idxOf earlier < sequence.idxOf later := by
  match sequence with
  | [] => exact List.Pairwise.nil
  | name :: rest =>
      have different : ∀ other ∈ (rest.filter fun other => !other == name).eraseDups,
          (!other == name) = true := fun other member =>
        (List.mem_filter.mp (List.mem_eraseDups.mp member)).2
      have shifted : ∀ other, (!other == name) = true →
          (name :: rest).idxOf other = rest.idxOf other + 1 := by
        intro other apart
        exact List.idxOf_cons_ne rest fun same => by simp [same] at apart
      rw [List.eraseDups_cons]
      refine List.Pairwise.cons (fun other member => ?_) ?_
      · rw [shifted other (different other member), List.idxOf_cons_self]
        exact Nat.succ_pos _
      · have ordered := pairwise_idxOf_eraseDups (rest.filter fun other => !other == name)
        refine ordered.imp_of_mem fun {earlier later} first second lt => ?_
        have before : rest.idxOf earlier < rest.idxOf later :=
          idxOf_lt_of_filter (different earlier first) (different later second) lt
        rw [shifted earlier (different earlier first), shifted later (different later second)]
        exact Nat.succ_lt_succ before
termination_by sequence.length
decreasing_by exact Nat.lt_succ_of_le (List.length_filter_le _ rest)

/-- Without its repetitions a sequence lists its names by their first appearances. -/
theorem ListsFirsts.eraseDups (sequence : List α) : ListsFirsts sequence sequence.eraseDups where
  mem_iff _ := List.mem_eraseDups
  nodup := (pairwise_idxOf_eraseDups sequence).imp fun lt same => by
    rw [same] at lt
    exact Nat.lt_irrefl _ lt
  inOrder := pairwise_idxOf_eraseDups sequence

end TapeLab
