import Mathlib.Data.Fin.VecNotation
import Mathlib.Logic.Equiv.Defs
import TapeLab.Proofs.Machine.Runs

/-!
# Rules that can be left out or put elsewhere

What a table finds for a pair is settled by the first rule of the pair.  So a rule that stands
behind another one of its pair may be left out (`Table.firstFor_unrepeated`), and rules may change
places as long as those of each pair stay in order (`Table.Reordering.firstFor_eq`).  A run asks
its table for nothing but rules and the blank, so tables that find the same rules run alike
(`Table.alike_of_lookup`).
-/

namespace TapeLab.Table

variable {rules others : List Rule} {key : RuleKey} {rule : Rule}

/-! ### Leaving out and reordering -/

/-- The rules without those for a known pair and those behind another one of their pair. -/
def unrepeated (known : List RuleKey) : List Rule → List Rule
  | [] => []
  | rule :: rest =>
    if rule.key ∈ known then unrepeated known rest
    else rule :: unrepeated (rule.key :: known) rest

/-- Every rule has a new place, and rules for one pair are in the order in which they were. -/
structure Reordering (rules others : List Rule) where
  place : Fin rules.length ≃ Fin others.length
  getElem_place : ∀ index, others[place index] = rules[index]
  place_lt : ∀ first later, rules[first].key = rules[later].key → first < later →
    place first < place later

/-- Rules are changed in a way that no look-up should notice: the repeated ones are left out, or
they are put in another order. -/
inductive Rearranges (rules : List Rule) : List Rule → Prop where
  | leavesOut : Rearranges rules (unrepeated [] rules)
  | reorders {others : List Rule} (reordering : Reordering rules others) :
      Rearranges rules others

/-- The first rule for a pair is not left out, unless the pair is known. -/
theorem firstFor_unrepeated (known : List RuleKey) (rules : List Rule) (key : RuleKey) :
    firstFor (unrepeated known rules) key = if key ∈ known then none else firstFor rules key := by
  induction rules generalizing known with
  | nil => simp [unrepeated, firstFor]
  | cons rule rest inductionHypothesis =>
      unfold firstFor at inductionHypothesis ⊢
      by_cases isKnown : rule.key ∈ known
      · rw [unrepeated, if_pos isKnown, inductionHypothesis]
        by_cases same : rule.key = key
        · simp [← same, isKnown]
        · simp [same]
      · rw [unrepeated, if_neg isKnown]
        by_cases same : rule.key = key
        · simp [← same, isKnown]
        · simp [same, Ne.symm same, inductionHypothesis]

namespace Reordering

/-- The rules are put back. -/
def symm (reordering : Reordering rules others) : Reordering others rules where
  place := reordering.place.symm
  getElem_place index := by
    have moved := reordering.getElem_place (reordering.place.symm index)
    simp only [Equiv.apply_symm_apply] at moved
    exact moved.symm
  place_lt first later same lt := by
    obtain ⟨first, rfl⟩ := reordering.place.surjective first
    obtain ⟨later, rfl⟩ := reordering.place.surjective later
    rw [reordering.getElem_place, reordering.getElem_place] at same
    rw [Equiv.symm_apply_apply, Equiv.symm_apply_apply]
    -- Were they the other way round, so would be their new places.
    rcases Nat.lt_trichotomy first.val later.val with before | equal | after
    · exact before
    · obtain rfl : first = later := Fin.ext equal
      exact absurd lt (lt_irrefl _)
    · exact absurd lt (lt_asymm (reordering.place_lt later first same.symm after))

/-- The first rule for a pair is the first in the new order. -/
theorem firstFor_eq_some (reordering : Reordering rules others)
    (found : firstFor rules key = some rule) : firstFor others key = some rule := by
  simp only [firstFor, List.find?_eq_some_iff_getElem] at found ⊢
  obtain ⟨isFor, index, inside, rfl, earlier⟩ := found
  refine ⟨isFor, reordering.place ⟨index, inside⟩, Fin.is_lt _,
    reordering.getElem_place ⟨index, inside⟩, fun other lt => ?_⟩
  -- A rule for the pair in front of it would have been in front of it before.
  by_contra isForToo
  obtain ⟨origin, moved⟩ := reordering.place.surjective ⟨other, by omega⟩
  have kept : others[other] = rules[origin] := by
    have kept := reordering.getElem_place origin
    simp only [moved] at kept
    exact kept
  have same : rules[index].key = rules[origin].key := by
    simp only [Bool.not_eq_true, Bool.not_eq_false', beq_iff_eq, kept] at isFor isForToo
    exact isFor.trans isForToo.symm
  have notBefore : ¬origin.val < index := fun before => by
    have different := earlier origin before
    simp_all
  rcases Nat.lt_or_eq_of_le (Nat.not_lt.mp notBefore) with after | equal
  · have placed := reordering.place_lt ⟨index, inside⟩ origin same after
    rw [moved] at placed
    exact absurd placed (Nat.not_lt.mpr (Nat.le_of_lt lt))
  · obtain rfl : ⟨index, inside⟩ = origin := Fin.ext equal
    rw [moved] at lt
    exact absurd lt (Nat.lt_irrefl _)

/-- The same rule is the first for a pair. -/
theorem firstFor_eq (reordering : Reordering rules others) (key : RuleKey) :
    firstFor others key = firstFor rules key :=
  Option.ext fun _ => ⟨reordering.symm.firstFor_eq_some, reordering.firstFor_eq_some⟩

end Reordering

/-- Rearranged rules have the same first rule for every pair. -/
theorem Rearranges.firstFor_eq (rearranges : Rearranges rules others) (key : RuleKey) :
    firstFor others key = firstFor rules key := by
  cases rearranges with
  | leavesOut => simp [firstFor_unrepeated]
  | reorders reordering => exact reordering.firstFor_eq key

/-! ### Running alike -/

/-- Tables that cannot be told apart by their look-ups, nor by any step, run or trace, from
whatever configuration. -/
structure Alike (table other : Table) : Prop where
  lookup : ∀ state symbol, other.lookup state symbol = table.lookup state symbol
  stage : ∀ (config : Config) switches count,
    config.stage other switches count = config.stage table switches count
  step? : ∀ (config : Config) writeBlank,
    config.step? other writeBlank = config.step? table writeBlank
  run? : ∀ (config : Config) writeBlank cap,
    config.run? other writeBlank cap = config.run? table writeBlank cap
  trace? : ∀ (config : Config) writeBlank cap,
    config.trace? other writeBlank cap = config.trace? table writeBlank cap
  runToEnd? : ∀ (config : Config) writeBlank fuel,
    config.runToEnd? other writeBlank fuel = config.runToEnd? table writeBlank fuel

section Alike

variable {table other : Table}

/-- A step asks its table for a rule and for the blank. -/
theorem step_of_lookup (blank : other.blank = table.blank)
    (lookup : ∀ state symbol, other.lookup state symbol = table.lookup state symbol)
    (config : Config) (writeBlank : Bool) :
    config.step other writeBlank = config.step table writeBlank := by
  have applies (rule : Rule) :
      config.apply other writeBlank rule = config.apply table writeBlank rule := by
    unfold Config.apply Config.written Config.writes
    rw [blank]
  unfold Config.step Config.stuck Config.scanned
  simp only [blank, lookup, applies]

/-- Tables that have one blank and find the same rules run alike. -/
theorem alike_of_lookup (blank : other.blank = table.blank)
    (lookup : ∀ state symbol, other.lookup state symbol = table.lookup state symbol) :
    Alike table other := by
  have step := step_of_lookup blank lookup
  have stage (config : Config) (switches : Nat → Bool) (count : Nat) :
      config.stage other switches count = config.stage table switches count := by
    induction count with
    | zero => rfl
    | succ count inductionHypothesis =>
        rw [Config.stage, inductionHypothesis, step, Config.stage]
  have run (config : Config) (writeBlank : Bool) (cap : Nat) :
      config.run other writeBlank cap = config.run table writeBlank cap := by
    rw [Config.run_eq_stage, Config.run_eq_stage, stage]
  have trace (config : Config) (writeBlank : Bool) (cap : Nat) :
      config.trace other writeBlank cap = config.trace table writeBlank cap := by
    induction cap generalizing config with
    | zero => rfl
    | succ cap inductionHypothesis => simp only [Config.trace, step, inductionHypothesis]
  exact
    { lookup
      stage
      step? := fun config writeBlank => by rw [Config.step?, step, Config.step?]
      run? := fun config writeBlank cap => by rw [Config.run?, run, Config.run?]
      trace? := fun config writeBlank cap => by rw [Config.trace?, trace, Config.trace?]
      runToEnd? := fun config writeBlank fuel => by
        rw [Config.runToEnd?, run, Config.runToEnd?] }

end Alike

/-- A table finds what reading its rules from the top finds.  So no look-up and no run can tell
whether its repeated rules were left out, or its rules put in another order in which those of each
pair are as they were. -/
theorem alike_of_rearranges (rules : List Rule) (blank : Symbol) :
    (∀ state symbol, (ofRules rules blank).lookup state symbol = scan rules blank state symbol) ∧
      ∀ others, Rearranges rules others → Alike (ofRules rules blank) (ofRules others blank) := by
  refine ⟨lookup_ofRules rules blank, fun others rearranges => alike_of_lookup rfl ?_⟩
  intro state symbol
  rw [lookup_ofRules, lookup_ofRules, scan, scan, rearranges.firstFor_eq, rearranges.firstFor_eq]

/-- Two rules for one pair, and two that their state falls back to. -/
def crowdedRules : List Rule :=
  [⟨"q0", "_", "q1", "1", .right, false, none⟩, ⟨"q0", "0", "q0", "1", .right, false, none⟩,
    ⟨"q0", "_", "q0", "0", .stay, false, none⟩, ⟨"q0", "0", "q2", "0", .left, false, none⟩]

/-- The rules for the symbol in front of those for the blank. -/
def sortedRules : List Rule :=
  [⟨"q0", "0", "q0", "1", .right, false, none⟩, ⟨"q0", "0", "q2", "0", .left, false, none⟩,
    ⟨"q0", "_", "q1", "1", .right, false, none⟩, ⟨"q0", "_", "q0", "0", .stay, false, none⟩]

/-- Each rule goes to its place among those for its pair. -/
def sorting : Reordering crowdedRules sortedRules where
  place :=
    { toFun := (![2, 0, 3, 1] : Fin 4 → Fin 4)
      invFun := (![1, 3, 0, 2] : Fin 4 → Fin 4)
      left_inv := (by decide : ∀ index : Fin 4, ![1, 3, 0, 2] (![2, 0, 3, 1] index) = index)
      right_inv := (by decide : ∀ index : Fin 4, ![2, 0, 3, 1] (![1, 3, 0, 2] index) = index) }
  getElem_place := by decide
  place_lt := by decide

/-- Rules of which two are repeated run as those without repetitions do, and as the sorted ones. -/
theorem alike_of_rearranges_crowded :
    unrepeated [] crowdedRules = crowdedRules.take 2 ∧
      Alike (ofRules crowdedRules "_") (ofRules (unrepeated [] crowdedRules) "_") ∧
      Alike (ofRules crowdedRules "_") (ofRules sortedRules "_") :=
  ⟨by decide, (alike_of_rearranges crowdedRules "_").2 _ .leavesOut,
    (alike_of_rearranges crowdedRules "_").2 _ (.reorders sorting)⟩

end TapeLab.Table
