import Mathlib.Data.List.Sort
import Mathlib.Data.String.Basic
import TapeLab.Inspect.Grid
import TapeLab.Proofs.FirstAppearances

/-!
# What a grid says of its table

A grid looks for a rule among those of the row's state, and a table by the pair of state and
symbol.  Both come upon the rule that was declared first for the pair (`Table.find?_rulesFor`), so
a cell describes the rule that a machine applies there.  It is empty where no rule is for the pair,
and the machine goes by the column of the blank (`Inspect.describes_ofTable`).
-/

namespace TapeLab

/-- A machine halts exactly when its head stays. -/
theorem Move.halts_eq_true_iff {move : Move} : move.halts = true ↔ move = .stay := by
  cases move <;> simp [Move.halts]

namespace Table

variable {rules : List Rule} {blank : Symbol} {state : StateName} {symbol : Symbol} {rule : Rule}

/-- The first rule of a state that reads a symbol is the first one for the pair. -/
theorem find?_rulesFor (table : Table) (state : StateName) (symbol : Symbol) :
    ((table.rulesFor state).find? fun rule => rule.read == symbol) =
      firstFor table.rules (state, symbol) := by
  have same : ∀ rule : Rule, decide ((rule.state == state) = true ∧ (rule.read == symbol) = true) =
      (rule.key == (state, symbol)) := fun rule => by
    rw [Bool.eq_iff_iff]
    simp [Rule.key]
  rw [rulesFor, List.find?_filter, firstFor, funext same]

/-- There is no first rule for a pair exactly if no rule is for it. -/
theorem firstFor_eq_none_iff :
    firstFor rules (state, symbol) = none ↔
      ∀ rule ∈ rules, ¬(rule.state = state ∧ rule.read = symbol) := by
  simp [firstFor, Rule.key]

/-- The first rule for a pair is for the pair, and the one that the table finds. -/
theorem lookup_of_firstFor (blank : Symbol)
    (first : firstFor rules (state, symbol) = some rule) :
    (rule.state = state ∧ rule.read = symbol) ∧
      (ofRules rules blank).lookup state symbol = some rule := by
  have same : rule.key = (state, symbol) := by simpa using List.find?_some first
  refine ⟨Prod.mk.inj same, ?_⟩
  rw [lookup_ofRules, scan, first, Option.some_or]

/-- Where no rule is for a pair, the table finds what it finds for the blank. -/
theorem lookup_of_undeclared (undeclared : firstFor rules (state, symbol) = none) :
    (ofRules rules blank).lookup state symbol = (ofRules rules blank).lookup state blank := by
  rw [lookup_ofRules, lookup_ofRules, scan, scan, undeclared, Option.none_or, Option.or_self]

end Table

namespace Inspect

variable {rules : List Rule} {blank : Symbol} {state : StateName} {symbol : Symbol} {rule : Rule}
  {left right : String}

/-! ### Cells -/

/-- What a cell says of a state and a symbol. -/
structure CellDescribes (rules : List Rule) (blank : Symbol) (state : StateName) (symbol : Symbol)
    (text : String) : Prop where
  /-- It is empty exactly if no rule is for the two. -/
  empty_iff : text = "-" ↔ ∀ rule ∈ rules, ¬(rule.state = state ∧ rule.read = symbol)
  /-- If it is not, it describes the rule that the table finds. -/
  found : text ≠ "-" → ∃ rule,
    (Table.ofRules rules blank).lookup state symbol = some rule ∧
      (rule.state = state ∧ rule.read = symbol) ∧
      (text = "HALT" ↔ rule.move = .stay ∧ rule.next = state) ∧
      (text ≠ "HALT" →
        text = rule.write ++ " " ++ String.singleton rule.move.letter ++ " " ++ rule.next)
  /-- If it is, the table finds what it finds for the blank. -/
  fallback : text = "-" → (Table.ofRules rules blank).lookup state symbol =
    (Table.ofRules rules blank).lookup state blank

/-- A description in three words is no single word. -/
theorem threeWords_ne {word first second third : String} (single : ' ' ∉ word.toList) :
    first ++ " " ++ second ++ " " ++ third ≠ word := by
  rintro rfl
  exact single (by simp)

/-- A rule is described as halting exactly if it stays in its place and in its state. -/
theorem ruleCell_eq_halt_iff :
    ruleCell state rule = "HALT" ↔ rule.move = .stay ∧ rule.next = state := by
  have stays_iff : (rule.move.halts && rule.next == state) = true ↔
      rule.move = .stay ∧ rule.next = state := by
    rw [Bool.and_eq_true, Move.halts_eq_true_iff, beq_iff_eq]
  unfold ruleCell
  split
  · next stays => exact iff_of_true rfl (stays_iff.mp stays)
  · next goesOn =>
      exact iff_of_false (threeWords_ne (by decide)) fun stays => goesOn (stays_iff.mpr stays)

/-- A rule that does not halt so is described by what it writes, its move and its next state. -/
theorem ruleCell_of_ne_halt (goesOn : ruleCell state rule ≠ "HALT") :
    ruleCell state rule =
      rule.write ++ " " ++ String.singleton rule.move.letter ++ " " ++ rule.next := by
  unfold ruleCell at goesOn ⊢
  split at goesOn
  · exact absurd rfl goesOn
  · next other => rw [if_neg other]

/-- The description of a rule is not that of an empty cell. -/
theorem ruleCell_ne_empty : ruleCell state rule ≠ "-" := by
  by_cases halts : ruleCell state rule = "HALT"
  · rw [halts]
    decide
  · rw [ruleCell_of_ne_halt halts]
    exact threeWords_ne (by decide)

/-- Every cell describes what the table finds. -/
theorem cellDescribes_cell (rules : List Rule) (blank : Symbol) (state : StateName)
    (symbol : Symbol) :
    CellDescribes rules blank state symbol (cell (Table.ofRules rules blank) state symbol) := by
  rw [cell, Table.find?_rulesFor, Table.rules_ofRules]
  cases first : Table.firstFor rules (state, symbol) with
  | none =>
      exact ⟨iff_of_true rfl (Table.firstFor_eq_none_iff.mp first), fun filled => absurd rfl filled,
        fun _ => Table.lookup_of_undeclared first⟩
  | some rule =>
      obtain ⟨declared, found⟩ := Table.lookup_of_firstFor blank first
      have member : rule ∈ rules := List.mem_of_find?_eq_some first
      exact ⟨iff_of_false ruleCell_ne_empty fun undeclared => undeclared rule member declared,
        fun _ => ⟨rule, found, declared, ruleCell_eq_halt_iff, ruleCell_of_ne_halt⟩,
        fun empty => absurd empty ruleCell_ne_empty⟩

/-! ### Columns -/

/-- The code points of a text. -/
def codePoints (text : String) : List Nat :=
  text.toList.map Char.toNat

/-- Texts are ordered as their code points are. -/
theorem codePoints_lt (lt : left < right) : codePoints left < codePoints right :=
  List.map_lt (fun _ _ less => UInt32.lt_iff_toNat_lt.mp (Char.lt_def.mp less))
    (String.lt_iff_toList_lt.mp lt)

/-- There is a column for every symbol that a rule reads. -/
theorem mem_columns {table : Table} :
    symbol ∈ columns table ↔ ∃ rule ∈ table.rules, rule.read = symbol := by
  rw [columns, List.mem_mergeSort, List.mem_eraseDups, List.mem_map]

/-- The columns are in the order of their code points, and no two are for one symbol. -/
theorem pairwise_columns (table : Table) :
    (columns table).Pairwise fun left right => codePoints left < codePoints right := by
  have ordered : (columns table).Pairwise (· ≤ ·) := List.pairwise_mergeSort' (· ≤ ·) _
  have once : (columns table).Nodup := (List.mergeSort_perm _ _).nodup_iff.mpr
    (ListsFirsts.eraseDups (table.rules.map Rule.read)).nodup
  exact (ordered.and once).imp fun before => codePoints_lt (lt_of_le_of_ne before.1 before.2)

/-! ### Grids -/

/-- What a grid says of the rules and the blank of a table. -/
structure Grid.Describes (rules : List Rule) (blank : Symbol) (grid : Grid) : Prop where
  /-- The columns are for the symbols that the rules read. -/
  mem_symbols : ∀ symbol, symbol ∈ grid.symbols ↔ ∃ rule ∈ rules, rule.read = symbol
  /-- Each column comes after those of lesser code points, so each symbol has one. -/
  increasing : grid.symbols.Pairwise fun left right => codePoints left < codePoints right
  /-- There is a row for each state that the table lists, in the order of the table. -/
  states : grid.rows.map Prod.fst = (Table.ofRules rules blank).states
  /-- A row has a cell for every column, which describes what the table finds there. -/
  cells : ∀ row ∈ grid.rows, List.Forall₂ (CellDescribes rules blank row.1) grid.symbols row.2

/-- The grid of a table describes what the table finds. -/
theorem describes_ofTable (rules : List Rule) (blank : Symbol) :
    (Grid.ofTable (Table.ofRules rules blank)).Describes rules blank where
  mem_symbols _ := mem_columns
  increasing := pairwise_columns _
  states := by
    rw [Grid.ofTable, List.map_map]
    exact List.map_id _
  cells row member := by
    obtain ⟨state, -, rfl⟩ := List.mem_map.mp member
    exact List.forall₂_map_right_iff.mpr
      (List.forall₂_same.mpr fun symbol _ => cellDescribes_cell rules blank state symbol)

end Inspect

end TapeLab
