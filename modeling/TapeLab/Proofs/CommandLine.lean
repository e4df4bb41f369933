import TapeLab.CommandLine

/-!
# What a command line gives

Whatever the words of a command line are, every option that is read off them is one that the
program knows, and what was given with it is of the kind that it takes, if anything was given
(`CommandLine.known_of_read`).
-/

namespace TapeLab.CommandLine

/-- What can be given with an option: a value of the kind that it takes, or nothing. -/
inductive Takes.Admits : Takes → Given → Prop where
  | nothing {takes : Takes} : takes.Admits .nothing
  | text (value : String) : Takes.text.Admits (.text value)
  | wholeNumber (value : Int) : Takes.wholeNumber.Admits (.number value)
  | oneOf {choices : List String} {value : String} (offered : value ∈ choices) :
      (Takes.oneOf choices).Admits (.text value)

/-- An option that the program knows, with what it admits. -/
def Known (parameters : List Parameter) (option : String × Given) : Prop :=
  ∃ parameter ∈ help :: parameters,
    option.1 = parameter.name ∧ parameter.takes.Admits option.2

variable {parameters : List Parameter}

/-- A value that is read is of the kind that it was read as. -/
theorem admits_of_readValue {takes : Takes} {text : String} {given : Given}
    (reads : readValue takes text = .ok given) : takes.Admits given := by
  cases takes with
  | nothing => cases reads
  | text =>
      cases reads
      exact .text text
  | wholeNumber =>
      simp only [readValue] at reads
      split at reads
      · next value _ =>
        cases reads
        exact .wholeNumber value
      · cases reads
  | oneOf choices =>
      simp only [readValue] at reads
      split at reads
      · next offered =>
        cases reads
        exact .oneOf (List.contains_iff_mem.mp offered)
      · cases reads

/-- So is a value that is attached to its option, unless it stands for no value. -/
theorem admits_of_readAttached {takes : Takes} {text : String} {given : Given}
    (reads : readAttached takes text = .ok given) : takes.Admits given := by
  unfold readAttached at reads
  split at reads
  · cases reads
    exact .nothing
  · exact admits_of_readValue reads

/-! ### Words -/

/-- A word that is an option is one that the program knows. -/
def Word.IsKnown (parameters : List Parameter) (word : Word) : Prop :=
  ∀ parameter attached, word = .option parameter attached → parameter ∈ help :: parameters

theorem isKnown_of_classifyLong {characters : List Char} {word : Word}
    (classified : classifyLong parameters characters = .ok word) : word.IsKnown parameters := by
  unfold classifyLong at classified
  obtain ⟨name, attached⟩ := cutAtEquals characters
  simp only at classified
  split at classified
  · next parameter named =>
    cases classified
    rintro _ _ ⟨⟩
    exact List.mem_of_find?_eq_some named
  · split at classified
    · cases classified
      intro parameter given option
      split at option <;> cases option
    · next parameter only =>
      cases classified
      rintro _ _ ⟨⟩
      have begun := List.mem_singleton_self parameter
      rw [← only] at begun
      exact (List.mem_filter.mp begun).1
    · cases classified

theorem isKnown_classifyShort (characters : List Char) :
    (classifyShort characters).IsKnown parameters := by
  intro parameter attached option
  unfold classifyShort at option
  split at option
  · cases option
    exact List.mem_cons_self
  · split at option
    · cases option
    · split at option <;> cases option

theorem isKnown_of_classify {text : String} {word : Word}
    (classified : classify parameters text = .ok word) : word.IsKnown parameters := by
  unfold classify at classified
  simp only at classified
  split at classified
  · cases classified
    rintro _ _ ⟨⟩
  · split at classified
    · exact isKnown_of_classifyLong classified
    · cases classified
      exact isKnown_classifyShort _

theorem isKnown_of_classifyAll {texts : List String} {words : List Word}
    (classified : classifyAll parameters texts = .ok words) :
    ∀ word ∈ words, word.IsKnown parameters := by
  induction texts generalizing words with
  | nil =>
      cases classified
      exact fun _ member => absurd member List.not_mem_nil
  | cons text rest inductionHypothesis =>
      unfold classifyAll at classified
      split at classified
      · cases classified
        rintro word member _ _ rfl
        simp at member
      · cases first : classify parameters text with
        | error stop =>
            rw [first] at classified
            cases classified
        | ok word =>
            cases later : classifyAll parameters rest with
            | error stop =>
                rw [first, later] at classified
                cases classified
            | ok others =>
                rw [first, later] at classified
                cases classified
                exact List.forall_mem_cons.mpr
                  ⟨isKnown_of_classify first, inductionHypothesis later⟩

/-! ### Options -/

/-- One option more that the program knows. -/
theorem known_concat {options : Options} {parameter : Parameter} {given : Given}
    (known : ∀ option ∈ options, Known parameters option)
    (isKnown : parameter ∈ help :: parameters) (admits : parameter.takes.Admits given) :
    ∀ option ∈ options ++ [(parameter.name, given)], Known parameters option := by
  intro option member
  rcases List.mem_append.mp member with earlier | last
  · exact known option earlier
  · rw [List.mem_singleton.mp last]
    exact ⟨parameter, isKnown, rfl, admits⟩

/-- Using words keeps every option known. -/
theorem known_of_useWords {words : List Word} {before after : Reading}
    (isKnown : ∀ word ∈ words, word.IsKnown parameters)
    (known : ∀ option ∈ before.given, Known parameters option)
    (used : useWords before words = .ok after) :
    ∀ option ∈ after.given, Known parameters option := by
  -- the recursion of `useWords`: an option takes a value from its word, from the next, or none
  fun_induction useWords before words with
  | case1 reading =>
      cases used
      exact known
  | case2 reading text rest inductionHypothesis =>
      exact inductionHypothesis (List.forall_mem_cons.mp isKnown).2 known used
  | case3 reading rest inductionHypothesis =>
      exact inductionHypothesis (List.forall_mem_cons.mp isKnown).2 known used
  | case4 => cases used
  | case5 reading parameter value rest inductionHypothesis =>
      obtain ⟨first, others⟩ := List.forall_mem_cons.mp isKnown
      cases read : readAttached parameter.takes value with
      | error stop =>
          rw [read] at used
          cases used
      | ok given =>
          rw [read] at used
          exact inductionHypothesis given others
            (known_concat known (first _ _ rfl) (admits_of_readAttached read)) used
  | case6 => cases used
  | case7 reading parameter rest notHelp bare inductionHypothesis =>
      obtain ⟨first, others⟩ := List.forall_mem_cons.mp isKnown
      exact inductionHypothesis others (known_concat known (first _ _ rfl) .nothing) used
  | case8 reading parameter notHelp valued value later inductionHypothesis =>
      obtain ⟨first, others⟩ := List.forall_mem_cons.mp isKnown
      cases read : readValue parameter.takes value with
      | error stop =>
          rw [read] at used
          cases used
      | ok given =>
          rw [read] at used
          exact inductionHypothesis given (List.forall_mem_cons.mp others).2
            (known_concat known (first _ _ rfl) (admits_of_readValue read)) used
  | case9 => cases used

/-- The options of a command line are known to the program, each given as it takes it. -/
theorem known_of_read {words : List String} {options : Options}
    (reads : read parameters words = .ok options) :
    ∀ option ∈ options, Known parameters option := by
  unfold read at reads
  cases classified : classifyAll parameters words with
  | error stop =>
      rw [classified] at reads
      cases reads
  | ok classes =>
      rw [classified] at reads
      cases used : useWords {} classes with
      | error stop =>
          simp only [bind, Except.bind, used] at reads
          cases reads
      | ok reading =>
          simp only [bind, Except.bind, used] at reads
          split at reads
          · cases reads
          · cases reads
            exact known_of_useWords (isKnown_of_classifyAll classified)
              (fun _ member => absurd member List.not_mem_nil) used

/-- A text that counts for an option was given with it. -/
theorem Options.mem_of_nonemptyText? {options : Options} {name text : String}
    (found : options.nonemptyText? name = some text) : (name, .text text) ∈ options := by
  unfold nonemptyText? last? at found
  split at found
  · next value last =>
    split at found
    · cases found
    · cases found
      obtain ⟨⟨key, given⟩, first, same⟩ := Option.map_eq_some_iff.mp last
      have named := List.find?_some first
      obtain rfl : key = name := beq_iff_eq.mp named
      obtain rfl : given = .text text := same
      exact List.mem_reverse.mp (List.mem_of_find?_eq_some first)
  · cases found

end TapeLab.CommandLine
