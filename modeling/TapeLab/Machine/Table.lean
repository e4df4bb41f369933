import Std.Data.HashMap
import TapeLab.Machine.Basic

/-!
# Transition tables

The rules of a machine together with its blank, indexed by state and symbol.  A
look-up takes the first rule declared for exactly the pair, and falls back to the
first rule that the state declares for the blank.  `scan` answers the same question
by reading the rules from the top.
-/

namespace TapeLab

/-- The pair by which a rule is found. -/
abbrev RuleKey := StateName × Symbol

/-- The pair for which a rule was declared. -/
def Rule.key (rule : Rule) : RuleKey :=
  (rule.state, rule.read)

/-- Rules in declaration order, with the first rule of every pair at hand. -/
structure Table where
  rules : List Rule
  blank : Symbol
  firsts : Std.HashMap RuleKey Rule

namespace Table

/-- The first rule of every pair, added to those already known. -/
def addFirsts (firsts : Std.HashMap RuleKey Rule) (rules : List Rule) :
    Std.HashMap RuleKey Rule :=
  rules.foldl (fun known rule => known.insertIfNew rule.key rule) firsts

/-- The table of a list of rules. -/
def ofRules (rules : List Rule) (blank : Symbol) : Table where
  rules := rules
  blank := blank
  firsts := addFirsts ∅ rules

/-- The table of a machine. -/
def ofDefinition (definition : Definition) : Table :=
  ofRules definition.rules definition.blank

/-- The rule for a state and a symbol: the exact one, else the one for the blank. -/
def lookup (table : Table) (state : StateName) (symbol : Symbol) : Option Rule :=
  table.firsts[(state, symbol)]?.or table.firsts[(state, table.blank)]?

/-- The first rule of a list that was declared for a pair. -/
def firstFor (rules : List Rule) (key : RuleKey) : Option Rule :=
  rules.find? fun rule => rule.key == key

/-- The rule for a state and a symbol, found by reading the rules from the top. -/
def scan (rules : List Rule) (blank : Symbol) (state : StateName) (symbol : Symbol) :
    Option Rule :=
  (firstFor rules (state, symbol)).or (firstFor rules (state, blank))

/-- The rules that a state declares, in order. -/
def rulesFor (table : Table) (state : StateName) : List Rule :=
  table.rules.filter fun rule => rule.state == state

/-- Every state that the rules name, in order of first appearance. -/
def states (table : Table) : List StateName :=
  (table.rules.flatMap fun rule => [rule.state, rule.next]).eraseDups

/-- Every symbol that the rules name, in order of first appearance. -/
def symbols (table : Table) : List Symbol :=
  (table.rules.flatMap fun rule => [rule.read, rule.write]).eraseDups

@[simp]
theorem rules_ofRules (rules : List Rule) (blank : Symbol) : (ofRules rules blank).rules = rules :=
  rfl

@[simp]
theorem blank_ofRules (rules : List Rule) (blank : Symbol) : (ofRules rules blank).blank = blank :=
  rfl

/-- Adding rules keeps what was known and finds the first rule of any other pair. -/
theorem getElem?_addFirsts (firsts : Std.HashMap RuleKey Rule) (rules : List Rule)
    (key : RuleKey) : (addFirsts firsts rules)[key]? = firsts[key]?.or (firstFor rules key) := by
  induction rules generalizing firsts with
  | nil => simp [addFirsts, firstFor]
  | cons rule rest inductionHypothesis =>
    have step := inductionHypothesis (firsts.insertIfNew rule.key rule)
    simp only [addFirsts, List.foldl_cons] at step ⊢
    rw [step, Std.HashMap.getElem?_insertIfNew]
    by_cases same : rule.key = key
    · subst same
      by_cases known : rule.key ∈ firsts
      · simp [known]
      · simp [known, firstFor]
    · simp [firstFor, same]

/-- The table of a rule list finds what reading the list from the top finds. -/
theorem lookup_ofRules (rules : List Rule) (blank : Symbol) (state : StateName)
    (symbol : Symbol) : (ofRules rules blank).lookup state symbol = scan rules blank state symbol := by
  simp [lookup, scan, ofRules, getElem?_addFirsts]

end Table

end TapeLab
