import Mathlib.Data.List.Nodup
import TapeLab.Keyed

/-!
# Looking up merged values

Entries of which no two are under one key are known by what is found under each key
(`Keyed.perm_of_get?`).  After others were put there, their values are found, and what was
there before is found under all other keys (`Keyed.get?_merge`).
-/

namespace TapeLab.Keyed

variable {κ α : Type} [BEq κ]

section Found

variable [LawfulBEq κ] {entries others : Keyed κ α} {key : κ}

/-- Nothing is found exactly under the keys that are not there. -/
theorem get?_eq_none_iff : get? entries key = none ↔ key ∉ entries.map Prod.fst := by
  simp only [get?, Option.map_eq_none_iff, List.find?_eq_none, beq_iff_eq, List.mem_map, not_exists,
    not_and]

/-- If every key is there once, what is found under a key is what stands there. -/
theorem get?_eq_some_iff (distinct : (entries.map Prod.fst).Nodup) {value : α} :
    get? entries key = some value ↔ (key, value) ∈ entries := by
  induction entries with
  | nil => simp [get?]
  | cons entry rest inductionHypothesis =>
      obtain ⟨name, old⟩ := entry
      rw [List.map_cons, List.nodup_cons] at distinct
      by_cases here : name = key
      · subst here
        have once : (name, value) ∉ rest := fun member =>
          distinct.1 (List.mem_map.mpr ⟨_, member, rfl⟩)
        simp [get?, once, eq_comm]
      · have there := inductionHypothesis distinct.2
        simp only [get?] at there
        simp [get?, here, there, Ne.symm here]

/-- Entries in which the same is found under every key are the same but for their order. -/
theorem perm_of_get? (distinct : (entries.map Prod.fst).Nodup)
    (distinctOthers : (others.map Prod.fst).Nodup)
    (same : ∀ key, get? entries key = get? others key) : entries.Perm others := by
  refine (List.perm_ext_iff_of_nodup (List.Nodup.of_map _ distinct)
    (List.Nodup.of_map _ distinctOthers)).mpr ?_
  rintro ⟨key, value⟩
  rw [← get?_eq_some_iff distinct, ← get?_eq_some_iff distinctOthers, same]

/-- A new key comes last, and one that was there stays where it was. -/
theorem map_fst_put (key : κ) (value : α) (entries : Keyed κ α) :
    (put key value entries).map Prod.fst =
      if key ∈ entries.map Prod.fst then entries.map Prod.fst
      else entries.map Prod.fst ++ [key] := by
  induction entries with
  | nil => simp [put]
  | cons entry rest inductionHypothesis =>
      obtain ⟨name, old⟩ := entry
      by_cases here : name = key
      · simp [put, here]
      · simp only [put, beq_eq_false_iff_ne.mpr here, Bool.false_eq_true, if_false, List.map_cons,
          inductionHypothesis, List.mem_cons, Ne.symm here, false_or]
        split <;> rfl

/-- No key is there twice after others were put there. -/
theorem nodup_merge (distinct : (entries.map Prod.fst).Nodup) (others : Keyed κ α) :
    ((merge entries others).map Prod.fst).Nodup := by
  induction others generalizing entries with
  | nil => exact distinct
  | cons entry rest inductionHypothesis =>
      apply inductionHypothesis
      rw [map_fst_put]
      split
      · exact distinct
      · next new =>
        rw [List.nodup_append]
        refine ⟨distinct, List.nodup_singleton _, fun name member other last => ?_⟩
        rw [List.mem_singleton.mp last]
        rintro rfl
        exact new member

end Found

/-- After others were put there, their values are found, and under all other keys what was
there before. -/
theorem get?_merge [EquivBEq κ] {entries others : Keyed κ α} (key : κ)
    (distinct : others.Pairwise fun first second => (first.1 == second.1) = false) :
    get? (merge entries others) key = (get? others key).or (get? entries key) := by
  induction others generalizing entries with
  | nil => rfl
  | cons entry rest inductionHypothesis =>
      obtain ⟨apart, distinctRest⟩ := List.pairwise_cons.mp distinct
      have later : get? (merge (put entry.1 entry.2 entries) rest) key =
          (get? rest key).or (get? (put entry.1 entry.2 entries) key) :=
        inductionHypothesis distinctRest
      have merged : merge entries (entry :: rest) = merge (put entry.1 entry.2 entries) rest := rfl
      rw [merged, later, get?_put]
      by_cases here : entry.1 == key
      · have once : get? rest key = none := by
          simp only [get?, Option.map_eq_none_iff, List.find?_eq_none]
          intro other member same
          have alike : (entry.1 == other.1) = true := BEq.trans here (BEq.symm same)
          rw [apart other member] at alike
          cases alike
        have found : get? (entry :: rest) key = some entry.2 := by simp [get?, here]
        rw [once, if_pos here, found]
        rfl
      · have passed : get? (entry :: rest) key = get? rest key := by simp [get?, here]
        rw [if_neg here, passed]

end TapeLab.Keyed
