import TapeLab.Proofs.FirstAppearances
import TapeLab.Proofs.WellFormed

/-!
# The order of the rules

The rules of a structured machine are gathered by their states.  So those of one state, and those
that one line declares for its symbols, are in the order in which they were declared.  All of them
are in that order exactly if the declarations of each state stand together already
(`Structured.rules_inOrder_iff`): a block that is opened again, after another one, brings its rules
forward.
-/

namespace TapeLab.Structured

open TapeLab.Text

section Gathering

variable {α β : Type} {list first second : List α} {names : List β}

/-- Where all but one of several different names stand for nothing, the one is all there is. -/
theorem flatMap_eq_of_nodup {parts : β → List α} {name : β} (distinct : names.Nodup)
    (member : name ∈ names) (others : ∀ other ∈ names, other ≠ name → parts other = []) :
    names.flatMap parts = parts name := by
  obtain ⟨before, after, rfl⟩ := List.append_of_mem member
  have apart := List.nodup_append.mp distinct
  have nothingBefore : before.flatMap parts = [] := by
    refine List.flatMap_eq_nil_iff.mpr fun other inside => others other (by simp [inside]) ?_
    exact apart.2.2 other inside name List.mem_cons_self
  have nothingAfter : after.flatMap parts = [] := by
    refine List.flatMap_eq_nil_iff.mpr fun other inside => others other (by simp [inside]) ?_
    rintro rfl
    exact (List.nodup_cons.mp apart.2.1).1 inside
  rw [List.flatMap_append, List.flatMap_cons, nothingBefore, nothingAfter, List.append_nil,
    List.nil_append]

/-- A stretch of one element can be put in front of a grouped list in which it does not occur. -/
theorem Grouped.append {element : β} {stretch rest : List β} (grouped : Grouped rest)
    (alike : ∀ other ∈ stretch, other = element) (fresh : element ∉ rest) :
    Grouped (stretch ++ rest) := by
  induction stretch with
  | nil => exact grouped
  | cons first stretch inductionHypothesis =>
      obtain ⟨rfl, alikeRest⟩ := List.forall_mem_cons.mp alike
      refine grouped_cons_iff.mpr ⟨fun again => ?_, inductionHypothesis alikeRest⟩
      cases stretch with
      | nil => exact absurd again fresh
      | cons second stretch => rw [alikeRest second List.mem_cons_self]; rfl

/-- Stretches of different elements make up a grouped list. -/
theorem grouped_flatMap {parts : β → List β} (distinct : names.Nodup)
    (alike : ∀ name ∈ names, ∀ other ∈ parts name, other = name) :
    Grouped (names.flatMap parts) := by
  induction names with
  | nil => exact fun front between rest element cut => by simp at cut
  | cons name names inductionHypothesis =>
      obtain ⟨once, distinctRest⟩ := List.nodup_cons.mp distinct
      obtain ⟨alikeHere, alikeRest⟩ := List.forall_mem_cons.mp alike
      refine (inductionHypothesis distinctRest alikeRest).append alikeHere fun again => ?_
      obtain ⟨other, member, inside⟩ := List.mem_flatMap.mp again
      exact once (alikeRest other member name inside ▸ member)

variable [BEq β] [LawfulBEq β] {key : α → β}

/-- Elements gathered by their keys; keys come in order of first appearance. -/
def gathered (key : α → β) (list : List α) : List α :=
  (list.map key).eraseDups.flatMap fun name => list.filter fun element => key element == name

/-- What is chosen from elements of one key is the same, in the same order, after gathering. -/
theorem filter_gathered {chosen : α → Bool}
    (oneKey : ∀ element ∈ list, ∀ other ∈ list, chosen element = true → chosen other = true →
      key element = key other) : (gathered key list).filter chosen = list.filter chosen := by
  have perm : ((gathered key list).filter chosen).Perm (list.filter chosen) :=
    (perm_flatMap_filter list).filter chosen
  cases sought : list.filter chosen with
  | nil => rwa [sought, List.perm_nil] at perm
  | cons element rest =>
      obtain ⟨member, isChosen⟩ := List.mem_filter.mp (sought ▸ List.mem_cons_self)
      have known : key element ∈ (list.map key).eraseDups :=
        List.mem_eraseDups.mpr (List.mem_map_of_mem member)
      have here : ((list.filter fun other => key other == key element).filter chosen) =
          list.filter chosen := by
        rw [List.filter_filter]
        refine List.filter_congr fun other inside => ?_
        cases isOther : chosen other with
        | false => rfl
        | true => simp [oneKey other inside element member isOther isChosen]
      have elsewhere : ∀ name ∈ (list.map key).eraseDups, name ≠ key element →
          (list.filter fun other => key other == name).filter chosen = [] := by
        intro name _ differs
        rw [List.filter_filter, List.filter_eq_nil_iff]
        intro other inside both
        simp only [Bool.and_eq_true, beq_iff_eq] at both
        exact differs (both.2 ▸ oneKey other inside element member both.1 isChosen)
      rw [← sought, gathered, List.filter_flatMap,
        flatMap_eq_of_nodup (ListsFirsts.eraseDups _).nodup known elsewhere, here]

/-- Elements that gathering leaves in order stand together by their keys, and only those. -/
theorem gathered_eq_self_iff : gathered key list = list ↔ Grouped (list.map key) := by
  refine ⟨fun same => ?_, fun grouped => grouped.flatMap_filter⟩
  rw [← same, gathered, List.map_flatMap]
  refine grouped_flatMap (ListsFirsts.eraseDups _).nodup fun name _ other member => ?_
  obtain ⟨element, inside, rfl⟩ := List.mem_map.mp member
  simpa using (List.mem_filter.mp inside).2

end Gathering

/-- Lists in the order of a rank are the same if they have the same elements of each rank, in the
same order. -/
theorem eq_of_pairwise_rank {α : Type} {first second : List α} {rank : α → Nat}
    (ordered : first.Pairwise fun before after => rank before ≤ rank after)
    (orderedToo : second.Pairwise fun before after => rank before ≤ rank after)
    (same : ∀ number, first.filter (fun element => rank element == number) =
      second.filter fun element => rank element == number) : first = second := by
  -- An element of one list is in the other, so its head comes no later.
  have heads {element other : α} {rest more : List α}
      (ordered : (element :: rest).Pairwise fun before after => rank before ≤ rank after)
      (same : ∀ number, (element :: rest).filter (fun element => rank element == number) =
        (other :: more).filter fun element => rank element == number) : rank element ≤ rank other := by
    have member : other ∈ element :: rest := by
      have found : other ∈ (other :: more).filter fun element => rank element == rank other := by
        simp
      rw [← same] at found
      exact (List.mem_filter.mp found).1
    rcases List.mem_cons.mp member with rfl | later
    · exact Nat.le_refl _
    · exact (List.pairwise_cons.mp ordered).1 other later
  induction first generalizing second with
  | nil =>
      cases second with
      | nil => rfl
      | cons other more => simpa using same (rank other)
  | cons element rest inductionHypothesis =>
      cases second with
      | nil => simpa using same (rank element)
      | cons other more =>
          have level : rank other = rank element :=
            Nat.le_antisymm (heads orderedToo fun number => (same number).symm) (heads ordered same)
          have here := same (rank element)
          simp only [List.filter_cons, level, beq_self_eq_true, if_true] at here
          obtain ⟨rfl, -⟩ := List.cons.inj here
          refine congrArg _ (inductionHypothesis (List.pairwise_cons.mp ordered).2
            (List.pairwise_cons.mp orderedToo).2 fun number => ?_)
          have whole := same number
          simp only [List.filter_cons] at whole
          split at whole
          · exact (List.cons.inj whole).2
          · exact whole

section Declared

variable (source : String)

/-- Lines are read with the numbers they have. -/
theorem map_number_readLines (current : Option StateName) (numbered : List (Nat × List Char)) :
    (readLines current numbered).map SourceLine.number = numbered.map Prod.fst := by
  induction numbered generalizing current with
  | nil => rfl
  | cons line rest inductionHypothesis => simp only [readLines, List.map_cons, inductionHypothesis]

/-- The lines of a source are in the order of their numbers. -/
theorem pairwise_sourceLines :
    (sourceLines source).Pairwise fun before after => before.number < after.number := by
  have numbers : ((sourceLines source).map SourceLine.number).Pairwise (· < ·) := by
    rw [sourceLines, map_number_readLines]
    exact List.pairwise_map.mpr (pairwise_numberFrom 1 _)
  exact List.pairwise_map.mp numbers

/-- What a source declares is in the order of its lines. -/
theorem pairwise_declarationsOf :
    (declarationsOf source).Pairwise fun before after => before.line ≤ after.line := by
  refine List.pairwise_flatMap.mpr ⟨fun line _ => ?_, ?_⟩
  · refine List.pairwise_of_forall_mem_list fun before first after second => ?_
    exact Nat.le_of_eq ((line_of_mem_declarations first).trans (line_of_mem_declarations second).symm)
  · refine (pairwise_sourceLines source).imp fun later before first after second => ?_
    rw [line_of_mem_declarations first, line_of_mem_declarations second]
    exact Nat.le_of_lt later

/-- A declaration is for the state in whose block its line stands. -/
theorem reading_of_mem_declarations {declaration : Declaration} {blank : Symbol}
    {line : SourceLine} (member : declaration ∈ line.declarations blank) :
    ∃ symbols action, line.reading = .transition declaration.state symbols action := by
  simp only [SourceLine.declarations] at member
  split at member
  · next reading =>
    obtain ⟨_, -, rfl⟩ := List.mem_map.mp member
    exact ⟨_, _, reading⟩
  · cases member

/-- What one line declares is for one state. -/
theorem state_eq_of_line_eq {declaration other : Declaration}
    (declared : declaration ∈ declarationsOf source) (also : other ∈ declarationsOf source)
    (sameLine : declaration.line = other.line) : declaration.state = other.state := by
  obtain ⟨line, isLine, here⟩ := List.mem_flatMap.mp declared
  obtain ⟨second, isSecond, there⟩ := List.mem_flatMap.mp also
  have distinct : ((sourceLines source).map SourceLine.number).Nodup :=
    List.pairwise_map.mpr ((pairwise_sourceLines source).imp Nat.ne_of_lt)
  obtain rfl : line = second := by
    refine List.inj_on_of_nodup_map distinct isLine isSecond ?_
    rw [← line_of_mem_declarations here, ← line_of_mem_declarations there, sameLine]
  obtain ⟨_, _, reading⟩ := reading_of_mem_declarations here
  obtain ⟨_, _, readingToo⟩ := reading_of_mem_declarations there
  exact (Reading.transition.inj (reading.symm.trans readingToo)).1

/-- The rules are the first declarations for their keys, gathered by state. -/
theorem rules_read_eq : (read source).rules =
    (gathered Declaration.state (firstDeclarations (declarationsOf source))).map
      (Declaration.rule (read source).blank) := by
  rw [firstDeclarations, ← firstsOf_repeatsOf_eq.1, declarationsOf, rules_read, blank_read]
  simp only [Document.rules, Document.ofLines, byState, List.flatMap_map, ← List.map_flatMap]
  rfl

/-- The first declarations for their keys are some of those that a source makes, in order. -/
theorem firstDeclarations_sublist :
    (firstDeclarations (declarationsOf source)).Sublist (declarationsOf source) := by
  rw [firstDeclarations, ← firstsOf_repeatsOf_eq.1]
  exact firstsOf_repeatsOf_sublist.1

end Declared

/-- Rules come in the order of the lines that declare them. -/
def LinesInOrder (rules : List Rule) : Prop :=
  rules.Pairwise fun before after => ∃ first ∈ before.line, ∃ second ∈ after.line, first ≤ second

/-- Rules of declarations come in order if these do. -/
theorem linesInOrder_map_rule {declarations : List Declaration} {blank : Symbol} :
    LinesInOrder (declarations.map (Declaration.rule blank)) ↔
      declarations.Pairwise fun before after => before.line ≤ after.line := by
  simp [LinesInOrder, List.pairwise_map, Declaration.rule]

/-- What is declared first on a line keeps its order when it is gathered. -/
theorem filter_line_gathered (source : String) (number : Nat) :
    (gathered Declaration.state (firstDeclarations (declarationsOf source))).filter
        (fun declaration => declaration.line == number) =
      (firstDeclarations (declarationsOf source)).filter
        fun declaration => declaration.line == number := by
  have kept := (firstDeclarations_sublist source).subset
  refine filter_gathered fun first isFirst second isSecond here there => ?_
  exact state_eq_of_line_eq source (kept isFirst) (kept isSecond)
    ((beq_iff_eq.mp here).trans (beq_iff_eq.mp there).symm)

/-- So does what is declared first for a state. -/
theorem filter_state_gathered (declarations : List Declaration) (state : StateName) :
    (gathered Declaration.state declarations).filter
        (fun declaration => declaration.state == state) =
      declarations.filter fun declaration => declaration.state == state :=
  filter_gathered fun _ _ _ _ here there => (beq_iff_eq.mp here).trans (beq_iff_eq.mp there).symm

/-- What is declared first is in the order of the lines. -/
theorem pairwise_firstDeclarations (source : String) :
    (firstDeclarations (declarationsOf source)).Pairwise fun before after =>
      before.line ≤ after.line :=
  (pairwise_declarationsOf source).sublist (firstDeclarations_sublist source)

/-- The rules are in the order of their lines exactly if gathering leaves the declarations as
they are. -/
theorem linesInOrder_iff_gathered (source : String) :
    LinesInOrder (read source).rules ↔
      gathered Declaration.state (firstDeclarations (declarationsOf source)) =
        firstDeclarations (declarationsOf source) := by
  have ordered := pairwise_firstDeclarations source
  rw [rules_read_eq, linesInOrder_map_rule]
  constructor
  · intro sorted
    exact eq_of_pairwise_rank sorted ordered (filter_line_gathered source)
  · intro same
    rwa [same]

/-- Of the declarations of a structured source, which come in the order of the lines and of the
symbols that a line lists, the first for each state and symbol are its rules.  The rules of each
line are in the order of its list, and the rules of each state in the order of the lines.  All
rules are in the order of their lines, and then as they were declared, exactly if the declarations
of each state stand together. -/
theorem rules_inOrder_iff (source : String) :
    ((firstDeclarations (declarationsOf source)).Pairwise fun before after =>
        before.line ≤ after.line) ∧
      (∀ number : Nat, (read source).rules.filter (fun rule => rule.line == some (number : Int)) =
        ((firstDeclarations (declarationsOf source)).filter fun declaration =>
          declaration.line == number).map (Declaration.rule (read source).blank)) ∧
      (∀ state, (read source).rules.filter (fun rule => rule.state == state) =
        ((firstDeclarations (declarationsOf source)).filter fun declaration =>
          declaration.state == state).map (Declaration.rule (read source).blank)) ∧
      (LinesInOrder (read source).rules ↔
        Grouped ((firstDeclarations (declarationsOf source)).map Declaration.state)) ∧
      ((read source).rules =
          (firstDeclarations (declarationsOf source)).map (Declaration.rule (read source).blank) ↔
        Grouped ((firstDeclarations (declarationsOf source)).map Declaration.state)) := by
  have ordered := pairwise_firstDeclarations source
  refine ⟨ordered, fun number => ?_, fun state => ?_, ?_, fun same => ?_, fun grouped => ?_⟩
  · have lines (declaration : Declaration) : ((declaration.rule (read source).blank).line ==
        some (number : Int)) = (declaration.line == number) := by
      rw [Bool.eq_iff_iff]
      simp only [Declaration.rule, beq_iff_eq, Option.some.injEq, Int.natCast_inj]
    rw [rules_read_eq, List.filter_map, ← filter_line_gathered]
    simp only [Function.comp_def, lines]
  · rw [rules_read_eq, List.filter_map, ← filter_state_gathered]
    rfl
  · rw [linesInOrder_iff_gathered, gathered_eq_self_iff]
  · rw [← gathered_eq_self_iff, ← linesInOrder_iff_gathered, same]
    exact linesInOrder_map_rule.mpr ordered
  · rw [rules_read_eq, gathered_eq_self_iff.mpr grouped]

/-- A block that is opened again: its second rule stands before that of the other block, though it
was declared on a later line. -/
theorem reopened_block_not_inOrder :
    (read "table:\ns:\n  0: R\nt:\n  0: R\ns:\n  1: R\n").rules.map Rule.line =
        [some 3, some 7, some 5] ∧
      ¬LinesInOrder (read "table:\ns:\n  0: R\nt:\n  0: R\ns:\n  1: R\n").rules := by
  have lines : (read "table:\ns:\n  0: R\nt:\n  0: R\ns:\n  1: R\n").rules.map Rule.line =
      [some 3, some 7, some 5] := by
    decide +kernel
  refine ⟨lines, fun sorted => ?_⟩
  have sortedLines := List.pairwise_map (f := Rule.line) (R := fun before after =>
    ∃ first ∈ before, ∃ second ∈ after, first ≤ second) |>.mpr sorted
  rw [lines] at sortedLines
  exact absurd sortedLines (by decide)

end TapeLab.Structured
