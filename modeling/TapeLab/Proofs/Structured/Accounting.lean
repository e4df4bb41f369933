import Mathlib.Data.List.Nodup
import TapeLab.Machine.Table
import TapeLab.Proofs.Structured.Declarations
import TapeLab.Proofs.Text.Lines

/-!
# What becomes of every line

No line of a structured source is lost.  What its transitions declare is a rule, if nothing
before it is for the same state and symbol, and a problem otherwise; a line that cannot be
read is a problem, and there are no others.  `AccountsFor` says so of a machine, with
`firstDeclarations` and `laterDeclarations` for the two kinds of declarations, and
`read_accountsFor` proves it of the machine that is read.
-/

namespace TapeLab.Structured

open TapeLab.Text

section Earlier

variable {α β : Type} [BEq β] [LawfulBEq β] {key : α → β} {first second : List α}

/-- The elements of a list, each with those before it. -/
def withEarlier (list : List α) : List (List α × α) :=
  list.inits.zip list

/-- Nothing is before the first element, and it is before every other. -/
theorem withEarlier_cons (element : α) (rest : List α) :
    withEarlier (element :: rest) =
      ([], element) :: (withEarlier rest).map fun placed => (element :: placed.1, placed.2) := by
  simp [withEarlier, List.inits, List.zip_map_left]

/-- Elements gathered by their keys are the elements in another order. -/
theorem perm_flatMap_filter (list : List α) :
    ((list.map key).eraseDups.flatMap fun name =>
      list.filter fun element => key element == name).Perm list := by
  match list with
  | [] => exact .refl []
  | element :: rest =>
      -- The elements with other keys than the first are gathered by themselves.
      let others := rest.filter fun other => !key other == key element
      have names : ((rest.map key).filter fun name => !name == key element) = others.map key := by
        rw [List.filter_map]
        rfl
      have skips : ∀ name ∈ (others.map key).eraseDups,
          (rest.filter fun other => key other == name) =
            others.filter fun other => key other == name := by
        intro name member
        obtain ⟨found, isOther, rfl⟩ := List.mem_map.mp (List.mem_eraseDups.mp member)
        have differs : key found ≠ key element := by simpa using (List.mem_filter.mp isOther).2
        rw [List.filter_filter]
        refine List.filter_congr fun other _ => ?_
        by_cases same : key other = key found <;> simp [same, differs]
      have later := perm_flatMap_filter others
      rw [flatMap_filter_cons, names, List.flatMap_congr skips, List.cons_append]
      refine List.Perm.cons element ((later.append_left _).trans ?_)
      exact List.filter_append_perm (fun other => key other == key element) rest
termination_by list.length
decreasing_by exact Nat.lt_succ_of_le (List.length_filter_le _ rest)

/-- Where keys are different, an element is found by its key just if it is there. -/
theorem find?_eq_some_iff_of_nodup (distinct : (first.map key).Nodup) {wanted : β} {found : α} :
    (first.find? fun element => key element == wanted) = some found ↔
      found ∈ first ∧ key found = wanted := by
  refine ⟨fun sought => ⟨List.mem_of_find?_eq_some sought, ?_⟩, ?_⟩
  · simpa using List.find?_some sought
  · rintro ⟨member, rfl⟩
    obtain ⟨other, sought⟩ : ∃ other,
        (first.find? fun element => key element == key found) = some other := by
      rw [← Option.isSome_iff_exists, List.find?_isSome]
      exact ⟨found, member, beq_iff_eq.mpr rfl⟩
    have same : key other = key found := by simpa using List.find?_some sought
    rw [sought, List.inj_on_of_nodup_map distinct (List.mem_of_find?_eq_some sought) member same]

/-- Where keys are different, the order does not matter to what is found by a key. -/
theorem find?_eq_of_perm (perm : first.Perm second) (distinct : (first.map key).Nodup)
    (wanted : β) : (first.find? fun element => key element == wanted) =
      second.find? fun element => key element == wanted := by
  have distinctToo : (second.map key).Nodup := (perm.map key).nodup_iff.mp distinct
  ext found
  rw [find?_eq_some_iff_of_nodup distinct,
    find?_eq_some_iff_of_nodup distinctToo, perm.mem_iff]

end Earlier

/-- A declaration with those before it is for a key that is known or was declared. -/
def IsDeclared (known : List (StateName × Symbol)) (placed : List Declaration × Declaration) :
    Prop :=
  placed.2.key ∈ known ∨ placed.2.key ∈ placed.1.map Declaration.key

instance (known : List (StateName × Symbol)) : DecidablePred (IsDeclared known) :=
  fun placed => inferInstanceAs (Decidable (placed.2.key ∈ known ∨ _))

/-- The declarations before which nothing is for their key. -/
def firstDeclarations (declarations : List Declaration) : List Declaration :=
  ((withEarlier declarations).filter fun placed => ¬IsDeclared [] placed).map Prod.snd

/-- The declarations before which something is for their key. -/
def laterDeclarations (declarations : List Declaration) : List Declaration :=
  ((withEarlier declarations).filter fun placed => IsDeclared [] placed).map Prod.snd

section Declarations

variable {declaration : Declaration} {declarations : List Declaration}
  {known : List (StateName × Symbol)}

/-- What was declared first is known afterwards. -/
theorem isDeclared_cons (placed : List Declaration × Declaration) :
    IsDeclared known (declaration :: placed.1, placed.2) ↔
      IsDeclared (declaration.key :: known) placed := by
  simp only [IsDeclared, List.map_cons, List.mem_cons]
  tauto

/-- What is known need not be declared to be known. -/
theorem isDeclared_known (isKnown : declaration.key ∈ known)
    (placed : List Declaration × Declaration) :
    IsDeclared (declaration.key :: known) placed ↔ IsDeclared known placed := by
  simp only [IsDeclared, List.mem_cons]
  refine or_congr_left ⟨?_, Or.inr⟩
  rintro (same | here)
  · exact same ▸ isKnown
  · exact here

/-- Declarations are kept or reported by what is known and what is before them. -/
theorem firstsOf_repeatsOf_eq :
    firstsOf known declarations =
        ((withEarlier declarations).filter fun placed => ¬IsDeclared known placed).map Prod.snd ∧
      repeatsOf known declarations =
        ((withEarlier declarations).filter fun placed => IsDeclared known placed).map Prod.snd := by
  induction declarations generalizing known with
  | nil => exact ⟨rfl, rfl⟩
  | cons declaration rest inductionHypothesis =>
      by_cases isKnown : declaration.key ∈ known
      · obtain ⟨kept, reported⟩ := @inductionHypothesis known
        have here : IsDeclared known ([], declaration) := Or.inl isKnown
        simp [firstsOf, repeatsOf, withEarlier_cons, isKnown, here, kept, reported,
          List.filter_map, Function.comp_def, isDeclared_cons, isDeclared_known isKnown]
      · obtain ⟨kept, reported⟩ := @inductionHypothesis (declaration.key :: known)
        have here : ¬IsDeclared known ([], declaration) := by simp [IsDeclared, isKnown]
        simp [firstsOf, repeatsOf, withEarlier_cons, isKnown, here, kept, reported,
          List.filter_map, Function.comp_def, isDeclared_cons]

/-- The declarations that are kept are for different keys, none of which is known. -/
theorem nodup_firstsOf : ((firstsOf known declarations).map Declaration.key).Nodup ∧
    ∀ declaration ∈ firstsOf known declarations, declaration.key ∉ known := by
  induction declarations generalizing known with
  | nil => exact ⟨List.nodup_nil, fun _ member => absurd member List.not_mem_nil⟩
  | cons declaration rest inductionHypothesis =>
      by_cases isKnown : declaration.key ∈ known
      · have skipped : firstsOf known (declaration :: rest) = firstsOf known rest := by
          simp [firstsOf, isKnown]
        rw [skipped]
        exact inductionHypothesis
      · have kept : firstsOf known (declaration :: rest) =
            declaration :: firstsOf (declaration.key :: known) rest := by
          simp [firstsOf, isKnown]
        obtain ⟨distinct, fresh⟩ := @inductionHypothesis (declaration.key :: known)
        rw [kept, List.map_cons, List.nodup_cons, List.forall_mem_cons]
        refine ⟨⟨fun again => ?_, distinct⟩, isKnown, fun other member => ?_⟩
        · obtain ⟨other, member, same⟩ := List.mem_map.mp again
          exact fresh other member (List.mem_cons.mpr (Or.inl same))
        · exact fun here => fresh other member (List.mem_cons_of_mem _ here)

/-- What is kept and what is reported was declared. -/
theorem firstsOf_repeatsOf_sublist : (firstsOf known declarations).Sublist declarations ∧
    (repeatsOf known declarations).Sublist declarations := by
  induction declarations generalizing known with
  | nil => exact ⟨List.Sublist.refl _, List.Sublist.refl _⟩
  | cons declaration rest inductionHypothesis =>
      by_cases isKnown : declaration.key ∈ known
      · obtain ⟨kept, reported⟩ := @inductionHypothesis known
        simp [firstsOf, repeatsOf, isKnown, kept.cons declaration, reported]
      · obtain ⟨kept, reported⟩ := @inductionHypothesis (declaration.key :: known)
        simp [firstsOf, repeatsOf, isKnown, kept, reported.cons declaration]

/-- By a key that is not known the same is found among what is kept as among all. -/
theorem find?_firstsOf {key : StateName × Symbol} (unknown : key ∉ known) :
    (firstsOf known declarations).find? (fun declaration => declaration.key == key) =
      declarations.find? fun declaration => declaration.key == key := by
  induction declarations generalizing known with
  | nil => rfl
  | cons declaration rest inductionHypothesis =>
      by_cases isKnown : declaration.key ∈ known
      · have differs : declaration.key ≠ key := fun same => unknown (same ▸ isKnown)
        simp [firstsOf, isKnown, differs, inductionHypothesis unknown]
      · by_cases same : declaration.key = key
        · subst same
          simp [firstsOf, isKnown]
        · have later := @inductionHypothesis (declaration.key :: known)
            (by simp [unknown, Ne.symm same])
          simp [firstsOf, isKnown, same, later]

end Declarations

/-- What the transitions of a source declare for its machine, in the order of the lines and of
the symbols on a line. -/
def declarationsOf (source : String) : List Declaration :=
  (sourceLines source).flatMap (SourceLine.declarations (read source).blank)

/-- The state whose block a line opens. -/
def Reading.header? : Reading → Option StateName
  | .header state => some state
  | _ => none

/-- The state whose block the last of some lines leaves open. -/
def openBlock (lines : List SourceLine) : Option StateName :=
  (lines.filterMap fun line => line.reading.header?).getLast?

/-- A machine accounts for every line of its source. -/
structure AccountsFor (source : String) (machine : Definition) : Prop where
  /-- The lines are numbered from one, and each is read in the block that is open. -/
  lines : ∀ before line after, sourceLines source = before ++ line :: after →
    ∃ raw, (Text.lines source.toList)[before.length]? = some raw ∧
      line = ⟨before.length + 1, String.ofList (trim raw),
        readContent (openBlock before) (stripComment (trim raw))⟩
  /-- No line is missing. -/
  complete : (sourceLines source).length = (Text.lines source.toList).length
  /-- The rules are what is declared first for each key. -/
  rules : machine.rules.Perm
    ((firstDeclarations (declarationsOf source)).map (Declaration.rule machine.blank))
  /-- No two rules have the same key. -/
  distinct : (machine.rules.map Rule.key).Nodup
  /-- Every key that is declared has its rule. -/
  declared : ∀ key, key ∈ machine.rules.map Rule.key ↔
    key ∈ (declarationsOf source).map Declaration.key
  /-- The problems are the lines that cannot be read, and what is declared again. -/
  problems : machine.problems.Perm
    ((sourceLines source).filterMap SourceLine.problem? ++
      (laterDeclarations (declarationsOf source)).map Declaration.duplicateProblem)
  /-- The problems are in the order of their lines. -/
  ordered : machine.problems.Pairwise fun before after => before.line ≤ after.line
  /-- What is looked up is what is declared first for the state and the symbol, and else
  what is declared first for the state and the blank. -/
  lookup : ∀ state symbol, (Table.ofDefinition machine).lookup state symbol =
    (((declarationsOf source).find? fun declaration => declaration.key == (state, symbol)).or
      ((declarationsOf source).find? fun declaration =>
        declaration.key == (state, machine.blank))).map (Declaration.rule machine.blank)

section Lines

variable {current : Option StateName} {numbered : List (Nat × List Char)}

/-- A line leaves its own block open, unless a later line opens one. -/
theorem openBlock_cons (line : SourceLine) (later : List SourceLine) :
    (openBlock (line :: later)).or current =
      (openBlock later).or (line.reading.blockAfter current) := by
  cases reading : line.reading with
  | header state =>
      have opens : openBlock (line :: later) = some ((openBlock later).getD state) := by
        simp [openBlock, reading, Reading.header?, List.getLast?_cons]
      rw [opens, Reading.blockAfter]
      cases openBlock later <;> rfl
  | ignored | setting | transition | faulty =>
      simp [openBlock, reading, Reading.header?, Reading.blockAfter]

/-- Each line is read in the block that those before it leave open. -/
theorem readLines_eq_append {before after : List SourceLine} {line : SourceLine}
    (cut : readLines current numbered = before ++ line :: after) :
    ∃ number raw, numbered[before.length]? = some (number, raw) ∧
      line = ⟨number, String.ofList (trim raw),
        readContent ((openBlock before).or current) (stripComment (trim raw))⟩ := by
  induction before generalizing current numbered with
  | nil =>
      cases numbered with
      | nil => cases cut
      | cons first rest =>
          obtain ⟨number, raw⟩ := first
          obtain ⟨rfl, -⟩ := List.cons.inj cut
          exact ⟨number, raw, rfl, rfl⟩
  | cons first before inductionHypothesis =>
      cases numbered with
      | nil => cases cut
      | cons head rest =>
          obtain ⟨number, raw⟩ := head
          obtain ⟨rfl, later⟩ := List.cons.inj cut
          obtain ⟨found, text, stands, read⟩ := inductionHypothesis later
          rw [List.length_cons, List.getElem?_cons_succ, openBlock_cons]
          exact ⟨found, text, stands, read⟩

/-- Every line is read. -/
theorem length_readLines : (readLines current numbered).length = numbered.length := by
  induction numbered generalizing current with
  | nil => rfl
  | cons head rest inductionHypothesis =>
      simp only [readLines, List.length_cons, inductionHypothesis]

end Lines

/-- Each line of a source is read, with its number, in the block that those before it leave
open. -/
theorem sourceLines_eq_append {source : String} {before after : List SourceLine}
    {line : SourceLine} (cut : sourceLines source = before ++ line :: after) :
    ∃ raw, (lines source.toList)[before.length]? = some raw ∧
      line = ⟨before.length + 1, String.ofList (trim raw),
        readContent (openBlock before) (stripComment (trim raw))⟩ := by
  obtain ⟨number, raw, stands, read⟩ := readLines_eq_append cut
  rw [getElem?_numberFrom] at stands
  obtain ⟨text, found, same⟩ := Option.map_eq_some_iff.mp stands
  obtain ⟨rfl, rfl⟩ := Prod.mk.inj same
  refine ⟨text, found, ?_⟩
  rw [read, Option.or_none, Nat.add_comm]

/-- The rules of a document are those of the declarations that are kept, gathered by state. -/
theorem perm_rules_ofLines (lines : List SourceLine) :
    (Document.ofLines lines).rules.Perm
      ((firstsOf [] (lines.flatMap (SourceLine.declarations (Document.ofLines lines).blank))).map
        (Declaration.rule (Document.ofLines lines).blank)) := by
  simp only [Document.rules, Document.ofLines, byState, List.flatMap_map, ← List.map_flatMap]
  exact (perm_flatMap_filter _).map _

/-- No two rules of a document have the same key. -/
theorem nodup_keys_ofLines (lines : List SourceLine) :
    ((Document.ofLines lines).rules.map Rule.key).Nodup := by
  rw [((perm_rules_ofLines lines).map Rule.key).nodup_iff, List.map_map]
  exact nodup_firstsOf.1

/-- The problems of a document are its unreadable lines and the declarations that are
reported. -/
theorem perm_problems_ofLines (lines : List SourceLine) :
    (Document.ofLines lines).problems.Perm (lines.filterMap SourceLine.problem? ++
      (repeatsOf [] (lines.flatMap (SourceLine.declarations (Document.ofLines lines).blank))).map
        Declaration.duplicateProblem) :=
  List.mergeSort_perm _ _

/-- The problems of a document are in the order of their lines. -/
theorem pairwise_problems_ofLines (lines : List SourceLine) :
    (Document.ofLines lines).problems.Pairwise fun before after => before.line ≤ after.line := by
  have total : ∀ before after : Problem,
      (decide (before.line ≤ after.line) || decide (after.line ≤ before.line)) = true := by
    intro before after
    simpa using Int.le_total before.line after.line
  have chained : ∀ first second third : Problem, decide (first.line ≤ second.line) = true →
      decide (second.line ≤ third.line) = true → decide (first.line ≤ third.line) = true := by
    simpa using fun first second third => Int.le_trans
  have sorted := List.pairwise_mergeSort chained total (lines.filterMap SourceLine.problem? ++
    (repeatsOf [] (lines.flatMap (SourceLine.declarations (Document.ofLines lines).blank))).map
      Declaration.duplicateProblem)
  exact sorted.imp of_decide_eq_true

/-- The rules of a source's machine are those of its document. -/
theorem rules_read (source : String) :
    (read source).rules = (Document.ofLines (sourceLines source)).rules := by
  rw [read, Document.definition, Document.read]

/-- The blank of a source's machine is that of its document. -/
theorem blank_read (source : String) :
    (read source).blank = (Document.ofLines (sourceLines source)).blank := by
  rw [read, Document.definition, Document.read]

/-- The problems of a source's machine are those of its document. -/
theorem problems_read (source : String) :
    (read source).problems = (Document.ofLines (sourceLines source)).problems := by
  rw [read, Document.definition, Document.read]

section Read

variable (source : String)

/-- The rules of a source's machine are those of the declarations that are kept. -/
theorem perm_rules_read : (read source).rules.Perm
    ((firstsOf [] (declarationsOf source)).map (Declaration.rule (read source).blank)) := by
  rw [declarationsOf, rules_read, blank_read]
  exact perm_rules_ofLines (sourceLines source)

/-- No two rules of a source's machine have the same key. -/
theorem nodup_keys_read : ((read source).rules.map Rule.key).Nodup := by
  rw [rules_read]
  exact nodup_keys_ofLines (sourceLines source)

/-- The rule for a key is what is declared first for it. -/
theorem firstFor_read (key : StateName × Symbol) : Table.firstFor (read source).rules key =
    ((declarationsOf source).find? fun declaration => declaration.key == key).map
      (Declaration.rule (read source).blank) := by
  rw [Table.firstFor, find?_eq_of_perm (perm_rules_read source) (nodup_keys_read source),
    List.find?_map]
  exact congrArg _ (find?_firstsOf List.not_mem_nil)

/-- There are rules for the keys that are declared, and for no others. -/
theorem mem_keys_read (key : StateName × Symbol) : key ∈ (read source).rules.map Rule.key ↔
    key ∈ (declarationsOf source).map Declaration.key := by
  have keys : ((firstsOf [] (declarationsOf source)).map
      (Declaration.rule (read source).blank)).map Rule.key =
      (firstsOf [] (declarationsOf source)).map Declaration.key := by
    rw [List.map_map]
    rfl
  have sought : ∀ declarations : List Declaration, key ∈ declarations.map Declaration.key ↔
      (declarations.find? fun declaration => declaration.key == key).isSome := by
    simp
  rw [((perm_rules_read source).map Rule.key).mem_iff, keys, sought, sought,
    find?_firstsOf List.not_mem_nil]

/-- The machine of a structured source accounts for every line. -/
theorem read_accountsFor : AccountsFor source (read source) where
  lines _ _ _ cut := sourceLines_eq_append cut
  complete := by rw [sourceLines, length_readLines, length_numberFrom]
  rules := by
    rw [firstDeclarations, ← firstsOf_repeatsOf_eq.1]
    exact perm_rules_read source
  distinct := nodup_keys_read source
  declared := mem_keys_read source
  problems := by
    rw [laterDeclarations, ← firstsOf_repeatsOf_eq.2, declarationsOf, problems_read, blank_read]
    exact perm_problems_ofLines (sourceLines source)
  ordered := by
    rw [problems_read]
    exact pairwise_problems_ofLines (sourceLines source)
  lookup state symbol := by
    rw [Table.ofDefinition, Table.lookup_ofRules, Table.scan, firstFor_read, firstFor_read,
      Option.map_or]

end Read

/-- The blank, which is declared last, makes one key of two symbols. -/
example : (read "table:\nq:\n  ['', x]: R\nblank: x\n").problems.map Problem.line = [3] := by
  decide +kernel

end TapeLab.Structured
