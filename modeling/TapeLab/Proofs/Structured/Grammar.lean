import TapeLab.Proofs.Fallible
import TapeLab.Structured.LineGrammar

/-!
# Reading table lines by their grammar

The reader of table lines accepts exactly what the grammar of table lines describes, and reads it
as the grammar says (`readTokens_eq_ok_iff`).  Every part of the reader has two lemmas: what it
has read is a part of the line by the grammar, followed by the rest that it leaves, and such a
part is read whatever follows it.

The order of the entries of an action counts only for which of its writes is the last one
(`actionOf_perm`).
-/

namespace TapeLab.Structured

open Fallible

variable {tokens rest front key : List Token} {token : Token} {symbol : Symbol}
  {symbols : List Symbol} {entries others : List Entry} {state : StateName} {action : Action}
  {current : Option StateName} {line : TableLine}

/-- A mark is expected and comes. -/
theorem expectMark_eq_ok_iff {mark : Mark} :
    expectMark mark tokens = .ok rest ↔ tokens = .mark mark :: rest := by
  cases tokens with
  | nil => simp [expectMark]
  | cons token others =>
      by_cases comes : token = .mark mark
      · simp [expectMark, comes]
      · simp [expectMark, comes]

@[simp]
theorem expectMark_mark (mark : Mark) (rest : List Token) :
    expectMark mark (.mark mark :: rest) = .ok rest :=
  expectMark_eq_ok_iff.mpr rfl

/-- A symbol is expected and comes. -/
theorem symbolThen_eq_ok_iff :
    symbolThen tokens = .ok (symbol, rest) ↔
      ∃ token, token.symbol? = some symbol ∧ tokens = token :: rest := by
  cases tokens with
  | nil => simp [symbolThen]
  | cons token others =>
      cases named : token.symbol? with
      | none =>
          simp only [symbolThen, named, reduceCtorEq, false_iff]
          rintro ⟨_, other, ⟨⟩⟩
          exact absurd (named.symm.trans other) nofun
      | some found =>
          simp only [symbolThen, named, Except.ok.injEq, Prod.mk.injEq]
          constructor
          · rintro ⟨rfl, rfl⟩
            exact ⟨token, named, rfl⟩
          · rintro ⟨_, other, ⟨⟩⟩
            exact ⟨Option.some.inj (named.symm.trans other), rfl⟩

/-! ### Keys -/

/-- Symbols that are read after a first one are the rest of a list. -/
theorem symbolList_of_moreSymbols {first : Symbol} (named : token.symbol? = some first)
    (read : moreSymbols tokens = .ok (symbols, rest)) :
    ∃ front, SymbolList (token :: front) (first :: symbols) ∧ tokens = front ++ rest := by
  fun_induction moreSymbols tokens generalizing token first symbols with
  | case1 next after symbol nextNamed inductionHypothesis =>
      obtain ⟨⟨later, left⟩, readLater, ended⟩ := bind_eq_ok_iff.mp read
      cases ended
      obtain ⟨front, list, rfl⟩ := inductionHypothesis nextNamed readLater
      exact ⟨.mark .comma :: next :: front, .more named list, rfl⟩
  | case2 next after nameless => cases read
  | case3 => cases read
  | case4 =>
      cases read
      exact ⟨[], .last named, rfl⟩

/-- A list of symbols is read up to the bracket that closes it. -/
theorem SymbolList.read (list : SymbolList tokens symbols) :
    ∃ token front symbol others, tokens = token :: front ∧ symbols = symbol :: others ∧
      token.symbol? = some symbol ∧ ∀ rest, moreSymbols (front ++ .mark .closeBracket :: rest) =
        .ok (others, .mark .closeBracket :: rest) := by
  induction list with
  | @last token symbol named => exact ⟨token, [], symbol, [], rfl, rfl, named, fun _ => rfl⟩
  | @more token symbol tokens symbols named later inductionHypothesis =>
      obtain ⟨next, front, following, others, rfl, rfl, nextNamed, readsLater⟩ :=
        inductionHypothesis
      refine ⟨token, .mark .comma :: next :: front, symbol, following :: others, rfl, rfl, named,
        fun rest => ?_⟩
      simp only [List.cons_append, moreSymbols, nextNamed, readsLater rest]
      rfl

/-- What is read as a key is one, and has brackets unless it is a single symbol. -/
theorem isKey_of_keyThen {bracketed : Bool}
    (read : keyThen tokens = .ok (symbols, bracketed, rest)) :
    ∃ key, IsKey key symbols ∧ tokens = key ++ rest ∧ (bracketed = false →
      ∃ token symbol, token.symbol? = some symbol ∧ key = [token] ∧ symbols = [symbol]) := by
  unfold keyThen at read
  split at read
  · obtain ⟨⟨first, afterFirst⟩, readFirst, read⟩ := bind_eq_ok_iff.mp read
    obtain ⟨⟨others, afterOthers⟩, readOthers, read⟩ := bind_eq_ok_iff.mp read
    obtain ⟨after, closes, ended⟩ := bind_eq_ok_iff.mp read
    cases ended
    obtain ⟨token, named, rfl⟩ := symbolThen_eq_ok_iff.mp readFirst
    obtain rfl := expectMark_eq_ok_iff.mp closes
    obtain ⟨front, list, rfl⟩ := symbolList_of_moreSymbols named readOthers
    exact ⟨_, .listed list, by simp, nofun⟩
  · obtain ⟨⟨symbol, after⟩, readSymbol, ended⟩ := bind_eq_ok_iff.mp read
    cases ended
    obtain ⟨token, named, rfl⟩ := symbolThen_eq_ok_iff.mp readSymbol
    exact ⟨[token], .single named, rfl, fun _ => ⟨token, symbol, named, rfl, rfl⟩⟩

/-- A symbol by itself is read as a key without brackets. -/
theorem keyThen_single (named : token.symbol? = some symbol) (rest : List Token) :
    keyThen (token :: rest) = .ok ([symbol], false, rest) := by
  have reads : symbolThen (token :: rest) = .ok (symbol, rest) :=
    symbolThen_eq_ok_iff.mpr ⟨token, named, rfl⟩
  cases token with
  | mark sign => cases named
  | word text => simp only [keyThen, reads]; rfl
  | quoted text => simp only [keyThen, reads]; rfl

/-- A key is read whatever follows it. -/
theorem keyThen_of_isKey (isKey : IsKey key symbols) (rest : List Token) :
    ∃ bracketed, keyThen (key ++ rest) = .ok (symbols, bracketed, rest) := by
  cases isKey with
  | single named => exact ⟨false, keyThen_single named rest⟩
  | @listed tokens _ list =>
      obtain ⟨token, front, symbol, others, rfl, rfl, named, readsOthers⟩ := list.read
      have readsFirst : symbolThen (token :: (front ++ .mark .closeBracket :: rest)) =
          .ok (symbol, front ++ .mark .closeBracket :: rest) :=
        symbolThen_eq_ok_iff.mpr ⟨token, named, rfl⟩
      refine ⟨true, ?_⟩
      simp only [List.cons_append, List.append_assoc, List.nil_append, keyThen, readsFirst, bind,
        Except.bind, readsOthers, expectMark_mark]
      rfl

/-! ### Entries -/

/-- What is read as entries is a list of them. -/
theorem entryList_of_entriesThen (read : entriesThen tokens = .ok (entries, rest)) :
    ∃ front, EntryList front entries ∧ tokens = front ++ rest := by
  fun_induction entriesThen tokens generalizing entries with
  | case1 name value after symbol named inductionHypothesis =>
      obtain ⟨⟨later, left⟩, readLater, ended⟩ := bind_eq_ok_iff.mp read
      cases ended
      obtain ⟨front, list, rfl⟩ := inductionHypothesis readLater
      exact ⟨_, .more (.valued name named) list, rfl⟩
  | case2 name value after nameless => cases read
  | case3 name value after _ symbol named =>
      cases read
      exact ⟨_, .last (.valued name named), rfl⟩
  | case4 name value after _ nameless => cases read
  | case5 name => cases read
  | case6 name after inductionHypothesis =>
      obtain ⟨⟨later, left⟩, readLater, ended⟩ := bind_eq_ok_iff.mp read
      cases ended
      obtain ⟨front, list, rfl⟩ := inductionHypothesis readLater
      exact ⟨_, .more (.bare name) list, rfl⟩
  | case7 name after =>
      cases read
      exact ⟨_, .last (.bare name), rfl⟩
  | case8 token after => cases read
  | case9 => cases read

/-- A list of entries is read up to the brace that closes it. -/
theorem EntryList.read (list : EntryList tokens entries) (rest : List Token) :
    entriesThen (tokens ++ .mark .closeBrace :: rest) =
      .ok (entries, .mark .closeBrace :: rest) := by
  induction list with
  | last single =>
      cases single with
      | bare name => rfl
      | valued name named => simp [entriesThen, named]
  | more first later inductionHypothesis =>
      cases first with
      | bare name =>
          simp only [List.cons_append, List.nil_append, entriesThen, inductionHypothesis]
          rfl
      | valued name named =>
          simp only [List.cons_append, List.nil_append, entriesThen, named, inductionHypothesis]
          rfl

/-- No list of entries is empty. -/
theorem EntryList.exists_cons (list : EntryList tokens entries) :
    ∃ name after, tokens = .word name :: after := by
  cases list with
  | last single => cases single <;> exact ⟨_, _, rfl⟩
  | more first later => cases first <;> exact ⟨_, _, rfl⟩

/-! ### What entries make up -/

/-- The symbol of the last entry that writes. -/
def lastWritten (entries : List Entry) : Option Symbol :=
  ((entries.filter fun entry => entry.name == writeWord).getLast?).bind Entry.value

/-- Every entry that is no move writes a symbol. -/
def Writes (entries : List Entry) : Prop :=
  ∀ entry ∈ entries, moveOfWord? entry.name = none →
    entry.name = writeWord ∧ entry.value.isSome = true

/-- An entry that does not write does not count. -/
theorem lastWritten_cons_of_ne {entry : Entry} (other : entry.name ≠ writeWord) :
    lastWritten (entry :: entries) = lastWritten entries := by
  simp [lastWritten, other]

/-- An entry that writes counts if no later one writes. -/
theorem lastWritten_cons_write (writes : Writes entries) (symbol : Symbol) :
    lastWritten (⟨writeWord, some symbol⟩ :: entries) =
      (lastWritten entries).or (some symbol) := by
  have kept : (⟨writeWord, some symbol⟩ :: entries).filter (fun entry => entry.name == writeWord) =
      ⟨writeWord, some symbol⟩ :: entries.filter fun entry => entry.name == writeWord := by
    simp
  rw [lastWritten, kept, List.getLast?_cons, lastWritten]
  cases last : (entries.filter fun entry => entry.name == writeWord).getLast? with
  | none => rfl
  | some entry =>
      obtain ⟨member, isWrite⟩ := List.mem_filter.mp (List.mem_of_getLast? last)
      have noMove : moveOfWord? entry.name = none := by
        rw [beq_iff_eq.mp isWrite]
        decide
      obtain ⟨written, value⟩ := Option.isSome_iff_exists.mp (writes entry member noMove).2
      simp [value]

/-- What is known to be written after one entry more. -/
def writeStep (written : Option Symbol) (entry : Entry) : Except LineFault (Option Symbol) :=
  if (moveOfWord? entry.name).isSome then .ok written
  else if entry.name != writeWord then .error (.unknownEntry entry.name)
  else
    match entry.value with
    | none => .error .writeWithoutSymbol
    | some symbol => .ok (some symbol)

/-- What was written before counts as long as nothing is written after it. -/
theorem foldlM_writeStep_eq_ok_iff {write : Option Symbol} (written : Option Symbol) :
    entries.foldlM writeStep written = .ok write ↔
      Writes entries ∧ write = (lastWritten entries).or written := by
  have noMove : moveOfWord? writeWord = none := by decide
  induction entries generalizing written with
  | nil =>
      have none : Writes [] := nofun
      simp only [List.foldlM_nil, none, true_and]
      exact ⟨fun ended => (Except.ok.inj ended).symm, fun same => congrArg Except.ok same.symm⟩
  | cons entry entries inductionHypothesis =>
      obtain ⟨name, value⟩ := entry
      rw [List.foldlM_cons, bind_eq_ok_iff]
      cases moves : moveOfWord? name with
      | some move =>
          have other : name ≠ writeWord := by
            rintro rfl
            exact absurd (noMove.symm.trans moves) nofun
          have passes : writeStep written ⟨name, value⟩ = .ok written := by
            simp [writeStep, moves]
          have later : Writes (⟨name, value⟩ :: entries) ↔ Writes entries := by
            simp [Writes, moves]
          have sameLast : lastWritten (⟨name, value⟩ :: entries) = lastWritten entries :=
            lastWritten_cons_of_ne other
          simp only [passes, Except.ok.injEq, exists_eq_left', inductionHypothesis, later, sameLast]
      | none =>
          by_cases isWrite : name = writeWord
          · subst isWrite
            cases value with
            | none => simp [writeStep, Writes, moves]
            | some symbol =>
                have puts : writeStep written ⟨writeWord, some symbol⟩ = .ok (some symbol) := by
                  simp [writeStep, moves]
                have later : Writes (⟨writeWord, some symbol⟩ :: entries) ↔ Writes entries := by
                  simp [Writes]
                simp only [puts, Except.ok.injEq, exists_eq_left', inductionHypothesis, later]
                refine and_congr_right fun writes => ?_
                rw [lastWritten_cons_write writes, Option.or_assoc, Option.some_or]
          · simp [writeStep, Writes, moves, isWrite]

/-- The writes of entries are read exactly if every entry that is no move writes a symbol, and
the last of them counts. -/
theorem lastWrite_eq_ok_iff {write : Option Symbol} :
    lastWrite entries = .ok write ↔ Writes entries ∧ write = lastWritten entries := by
  have folded : lastWrite entries = entries.foldlM writeStep none := rfl
  rw [folded, foldlM_writeStep_eq_ok_iff, Option.or_none]

/-- What is made up of entries, said by the one move among them. -/
theorem makesAction_iff :
    MakesAction state entries action ↔
      ∃ entry, (entries.filter fun entry => (moveOfWord? entry.name).isSome) = [entry] ∧
        moveOfWord? entry.name = some action.move ∧
        action.next = (entry.value.filter fun next => !next.isEmpty).getD state ∧
        Writes entries ∧ action.write = lastWritten entries := by
  constructor
  · rintro ⟨⟨before, entry, after, rfl, moves, othersStay, next⟩, writes, write⟩
    refine ⟨entry, ?_, moves, next, writes, write⟩
    refine List.filter_eq_cons_iff.mpr ⟨before, after, rfl, ?_, by simp [moves], ?_⟩
    · intro other member
      simp [othersStay other (List.mem_append_left _ member)]
    · refine List.filter_eq_nil_iff.mpr fun other member => ?_
      simp [othersStay other (List.mem_append_right _ member)]
  · rintro ⟨entry, oneMove, moves, next, writes, write⟩
    obtain ⟨before, after, split, noneBefore, -, noneAfter⟩ := List.filter_eq_cons_iff.mp oneMove
    refine ⟨⟨before, entry, after, split, moves, fun other member => ?_, next⟩, writes, write⟩
    rcases List.mem_append.mp member with early | late
    · simpa using noneBefore other early
    · simpa using List.filter_eq_nil_iff.mp noneAfter other late

/-- A move whose value is empty leads where one without a value leads: nowhere. -/
theorem nextState_eq (state : StateName) (value : Option Symbol) :
    (match value with
      | some next => if next.isEmpty then state else next
      | none => state) = (value.filter fun next => !next.isEmpty).getD state := by
  cases value with
  | none => rfl
  | some next => cases empty : next.isEmpty <;> simp [Option.filter, empty]

/-- Entries are read as what they make up. -/
theorem actionOf_eq_ok_iff :
    actionOf state entries = .ok action ↔ MakesAction state entries action := by
  rw [makesAction_iff, actionOf]
  split
  · next entry oneMove =>
    rw [oneMove]
    cases moves : moveOfWord? entry.name with
    | none => simp [moves]
    | some move =>
        simp only [bind_eq_ok_iff, lastWrite_eq_ok_iff, List.cons.injEq, and_true,
          exists_eq_left', moves, Option.some.injEq]
        constructor
        · rintro ⟨write, ⟨writes, rfl⟩, ended⟩
          cases ended
          exact ⟨rfl, nextState_eq state entry.value, writes, rfl⟩
        · rintro ⟨rfl, next, writes, write⟩
          have same : action = ⟨lastWritten entries, action.move,
              (entry.value.filter fun next => !next.isEmpty).getD state⟩ := by
            rw [← next, ← write]
          rw [← nextState_eq] at same
          exact ⟨_, ⟨writes, rfl⟩, congrArg Except.ok same.symm⟩
  · next manyMoves =>
    constructor
    · intro refused
      cases refused
    · rintro ⟨entry, oneMove, -⟩
      exact absurd oneMove (manyMoves entry)

/-! ### Actions and lines -/

/-- What is read in braces is nothing, or a list of entries. -/
theorem entryList_of_bracedEntries (read : bracedEntries tokens = .ok (entries, rest)) :
    entries = [] ∨ ∃ front, EntryList front entries ∧
      tokens = .mark .openBrace :: front ++ .mark .closeBrace :: rest := by
  obtain ⟨opened, opens, readOpened⟩ := bind_eq_ok_iff.mp read
  obtain rfl := expectMark_eq_ok_iff.mp opens
  dsimp only at readOpened
  split at readOpened
  · obtain ⟨found, ⟨⟩, readClosing⟩ := bind_eq_ok_iff.mp readOpened
    obtain ⟨closed, -, ended⟩ := bind_eq_ok_iff.mp readClosing
    cases ended
    exact .inl rfl
  · obtain ⟨⟨found, closing⟩, readEntries, readClosing⟩ := bind_eq_ok_iff.mp readOpened
    obtain ⟨closed, closes, ended⟩ := bind_eq_ok_iff.mp readClosing
    cases ended
    obtain rfl := expectMark_eq_ok_iff.mp closes
    obtain ⟨front, list, rfl⟩ := entryList_of_entriesThen readEntries
    exact .inr ⟨front, list, rfl⟩

/-- What is read as an action is one. -/
theorem isAction_of_actionThen (read : actionThen state tokens = .ok (action, rest)) :
    ∃ front, IsAction state front action ∧ tokens = front ++ rest := by
  unfold actionThen at read
  split at read
  · cases read
  · next token after =>
    split at read
    · next move named =>
      cases read
      cases token with
      | word name => exact ⟨[.word name], .bare named, rfl⟩
      | quoted text => cases named
      | mark sign => cases named
    · obtain ⟨⟨entries, left⟩, readBraced, readMade⟩ := bind_eq_ok_iff.mp read
      obtain ⟨made, makes, ended⟩ := bind_eq_ok_iff.mp readMade
      cases ended
      have makes : MakesAction state entries action := actionOf_eq_ok_iff.mp makes
      rcases entryList_of_bracedEntries readBraced with rfl | ⟨front, list, same⟩
      · -- Without entries there is no move.
        obtain ⟨entry, oneMove, -⟩ := makesAction_iff.mp makes
        cases oneMove
      · exact ⟨_, .braced list makes, by rw [same]; simp⟩

/-- Entries in braces are read as what they make up, whatever follows. -/
theorem actionThen_braced (list : EntryList tokens entries) (rest : List Token) :
    actionThen state (.mark .openBrace :: tokens ++ .mark .closeBrace :: rest) =
      (actionOf state entries).map fun action => (action, rest) := by
  have readsEntries := list.read rest
  obtain ⟨name, after, rfl⟩ := list.exists_cons
  have braced : bracedEntries
      (.mark .openBrace :: .word name :: after ++ .mark .closeBrace :: rest) =
        .ok (entries, rest) := by
    simp only [List.cons_append] at readsEntries
    simp only [bracedEntries, List.cons_append, expectMark_mark, bind, Except.bind, readsEntries]
    rfl
  simp only [List.cons_append] at braced
  simp only [actionThen, bareMove?, braced, List.cons_append]
  change (actionOf state entries >>= fun action => pure (action, rest)) = _
  cases actionOf state entries <;> rfl

/-- An action is read whatever follows it. -/
theorem actionThen_of_isAction (isAction : IsAction state front action) (rest : List Token) :
    actionThen state (front ++ rest) = .ok (action, rest) := by
  cases isAction with
  | bare named => simp [actionThen, bareMove?, named]
  | braced list makes =>
      rw [List.append_assoc, List.singleton_append, actionThen_braced list,
        actionOf_eq_ok_iff.mpr makes]
      rfl

/-- What an action and the tokens after it make of the symbols of a key. -/
def transitionOf (symbols : List Symbol) : Action × List Token → Except LineFault TableLine
  | (action, []) => .ok (.transition symbols action)
  | (_, token :: _) => .error (.afterAction token)

/-- After a key and a colon an action is read. -/
theorem readTokens_key (isKey : IsKey key symbols) (goesOn : rest ≠ []) :
    readTokens (key ++ .mark .colon :: rest) (some state) =
      actionThen state rest >>= transitionOf symbols := by
  obtain ⟨bracketed, reads⟩ := keyThen_of_isKey isKey (.mark .colon :: rest)
  have more : rest.isEmpty = false := by simpa using goesOn
  simp only [readTokens, reads, bind, Except.bind, expectMark_mark, more, Bool.false_eq_true,
    if_false]
  cases actionThen state rest with
  | error fault => rfl
  | ok read =>
      obtain ⟨action, left⟩ := read
      cases left <;> rfl

/-- Tokens are read as a table line exactly if they are that line by the grammar. -/
theorem readTokens_eq_ok_iff :
    readTokens tokens current = .ok line ↔ IsTableLine current tokens line := by
  constructor
  · intro read
    obtain ⟨⟨symbols, bracketed, afterKey⟩, readKey, readColon⟩ := bind_eq_ok_iff.mp read
    obtain ⟨rest, colon, readRest⟩ := bind_eq_ok_iff.mp readColon
    obtain ⟨key, isKey, split, alone⟩ := isKey_of_keyThen readKey
    rw [split, expectMark_eq_ok_iff.mp colon]
    split at readRest
    · next ended =>
      obtain rfl := List.isEmpty_iff.mp ended
      split at readRest
      · cases bracketed with
        | true => cases readRest
        | false =>
            cases readRest
            obtain ⟨token, symbol, named, rfl, same⟩ := alone rfl
            cases same
            exact .header named
      · cases readRest
    · split at readRest
      · cases readRest
      · obtain ⟨⟨action, left⟩, readAction, readLine⟩ := bind_eq_ok_iff.mp readRest
        obtain ⟨front, isAction, rfl⟩ := isAction_of_actionThen readAction
        cases left with
        | cons token others => cases readLine
        | nil =>
            cases readLine
            rw [List.append_nil]
            exact .transition isKey isAction
  · intro isLine
    cases isLine with
    | header named =>
        simp only [readTokens, keyThen_single named, bind, Except.bind, expectMark_mark]
        rfl
    | @transition state key rest symbols action isKey isAction =>
        have goesOn : rest ≠ [] := by
          rintro rfl
          cases isAction
        have readsAction := actionThen_of_isAction isAction []
        rw [List.append_nil] at readsAction
        rw [readTokens_key isKey goesOn, readsAction]
        rfl

/-! ### The order of entries -/

/-- Entries in another order make up the same, but for which of their writes is the last. -/
theorem actionOf_perm (permuted : entries.Perm others)
    (makes : actionOf state entries = .ok action) :
    actionOf state others = .ok { action with write := lastWritten others } := by
  rw [actionOf_eq_ok_iff, makesAction_iff] at makes ⊢
  obtain ⟨entry, oneMove, moves, next, writes, -⟩ := makes
  have sameMove := permuted.symm.filter fun entry => (moveOfWord? entry.name).isSome
  rw [oneMove, List.perm_singleton] at sameMove
  exact ⟨entry, sameMove, moves, next,
    fun other member => writes other (permuted.mem_iff.mpr member), rfl⟩

/-- Entries of which at most one writes have the same last write in every order. -/
theorem lastWritten_perm (permuted : entries.Perm others)
    (atMostOne : (entries.filter fun entry => entry.name == writeWord).length ≤ 1) :
    lastWritten others = lastWritten entries := by
  have sameWrites := permuted.filter fun entry => entry.name == writeWord
  rw [lastWritten, lastWritten]
  cases writes : entries.filter fun entry => entry.name == writeWord with
  | nil =>
      rw [writes, List.nil_perm] at sameWrites
      rw [sameWrites]
  | cons entry more =>
      rw [writes, List.length_cons] at atMostOne
      obtain rfl : more = [] := List.eq_nil_of_length_eq_zero (by omega)
      rw [writes] at sameWrites
      rw [List.perm_singleton.mp sameWrites.symm]

/-! ### Texts -/

/-- The tokens of a transition with entries in braces. -/
def bracedTokens (key entries : List Token) : List Token :=
  key ++ .mark .colon :: .mark .openBrace :: entries ++ [.mark .closeBrace]

/-- A transition with entries in braces is read as its symbols and what its entries make up. -/
theorem readTokens_bracedTokens (isKey : IsKey key symbols) (list : EntryList tokens entries) :
    readTokens (bracedTokens key tokens) (some state) =
      (actionOf state entries).map (TableLine.transition symbols) := by
  have braced : actionThen state (.mark .openBrace :: tokens ++ [.mark .closeBrace]) =
      (actionOf state entries).map fun action => (action, []) := actionThen_braced list []
  have split : bracedTokens key tokens =
      key ++ .mark .colon :: (.mark .openBrace :: tokens ++ [.mark .closeBrace]) := by
    simp [bracedTokens]
  rw [split, readTokens_key isKey (by simp), braced]
  cases actionOf state entries <;> rfl

/-- Two lines that differ in nothing but the order of the entries of their action. -/
structure Reordered (tokens others : List Token) (entries permuted : List Entry) : Prop where
  lines : ∃ key symbols front back, IsKey key symbols ∧ EntryList front entries ∧
    EntryList back permuted ∧ tokens = bracedTokens key front ∧ others = bracedTokens key back
  perm : entries.Perm permuted

/-- The line that is read from entries in another order differs at most in what it writes, and not
even there unless several entries write. -/
theorem Reordered.read {permuted : List Entry} (reordered : Reordered tokens rest entries permuted)
    {state : StateName} (read : readTokens tokens (some state) = .ok (.transition symbols action)) :
    readTokens rest (some state) =
        .ok (.transition symbols { action with write := lastWritten permuted }) ∧
      ((entries.filter fun entry => entry.name == writeWord).length ≤ 1 →
        readTokens rest (some state) = .ok (.transition symbols action)) := by
  obtain ⟨key, listed, front, back, isKey, list, otherList, rfl, rfl⟩ := reordered.lines
  rw [readTokens_bracedTokens isKey list] at read
  rw [readTokens_bracedTokens isKey otherList]
  cases makes : actionOf state entries with
  | error fault =>
      rw [makes] at read
      cases read
  | ok made =>
      rw [makes] at read
      cases read
      have remade := actionOf_perm reordered.perm makes
      refine ⟨by rw [remade]; rfl, fun atMostOne => ?_⟩
      have written := (makesAction_iff.mp (actionOf_eq_ok_iff.mp makes)).choose_spec.2.2.2.2
      rw [remade, lastWritten_perm reordered.perm atMostOne, ← written]
      rfl

/-- In the block of a state, or before any block, a text that can be cut into tokens is read as a
table line exactly if its tokens are that line by the grammar, and every other text is refused
with a fault.  Entries in another order are read as the same line, but for which write is the last
one. -/
theorem readTableLine_eq_ok_iff (text : List Char) (current : Option StateName) :
    (∀ tokens, tokenize text = .ok tokens → ∀ line,
      readTableLine text current = .ok line ↔ IsTableLine current tokens line) ∧
    ((¬∃ tokens line, tokenize text = .ok tokens ∧ IsTableLine current tokens line) →
      ∃ fault, readTableLine text current = .error fault) ∧
    (∀ tokens other others entries permuted, tokenize text = .ok tokens →
      tokenize other = .ok others → Reordered tokens others entries permuted →
      ∀ symbols action, readTableLine text current = .ok (.transition symbols action) →
        readTableLine other current =
            .ok (.transition symbols { action with write := lastWritten permuted }) ∧
          ((entries.filter fun entry => entry.name == writeWord).length ≤ 1 →
            readTableLine other current = .ok (.transition symbols action))) := by
  have reads : ∀ {text tokens}, tokenize text = .ok tokens →
      readTableLine text current = readTokens tokens current := by
    intro text tokens cut
    rw [readTableLine, cut]
    rfl
  refine ⟨fun tokens cut line => ?_, fun noLine => ?_, ?_⟩
  · rw [reads cut, readTokens_eq_ok_iff]
  · cases cut : tokenize text with
    | error fault => exact ⟨fault, by rw [readTableLine, cut]; rfl⟩
    | ok tokens =>
        cases read : readTokens tokens current with
        | error fault => exact ⟨fault, (reads cut).trans read⟩
        | ok line => exact absurd ⟨tokens, line, cut, readTokens_eq_ok_iff.mp read⟩ noLine
  · intro tokens other others entries permuted cut cutOther reordered symbols action read
    rw [reads cut] at read
    rw [reads cutOther]
    -- A transition is read only in the block of a state.
    cases current with
    | none => cases readTokens_eq_ok_iff.mp read
    | some state => exact reordered.read read

/-- Two symbols with two writes around a move, and the same with the writes the other way
round. -/
theorem readTableLine_eq_ok_iff_shuffled :
    let text := "[a, '']: \x7bwrite: 1, L, write: 2\x7d".toList
    let other := "[a, '']: \x7bwrite: 2, write: 1, L\x7d".toList
    let key : List Token := [.mark .openBracket, .word "a", .mark .comma, .quoted "",
      .mark .closeBracket]
    let first : List Token := [.word "write", .mark .colon, .word "1"]
    let second : List Token := [.word "write", .mark .colon, .word "2"]
    let tokens := bracedTokens key
      (first ++ .mark .comma :: .word "L" :: .mark .comma :: second)
    let others := bracedTokens key
      (second ++ .mark .comma :: (first ++ .mark .comma :: [.word "L"]))
    tokenize text = .ok tokens ∧ tokenize other = .ok others ∧
      Reordered tokens others [⟨"write", some "1"⟩, ⟨"L", none⟩, ⟨"write", some "2"⟩]
        [⟨"write", some "2"⟩, ⟨"write", some "1"⟩, ⟨"L", none⟩] ∧
      readTableLine text (some "s") = .ok (.transition ["a", ""] ⟨some "2", .left, "s"⟩) ∧
      readTableLine other (some "s") = .ok (.transition ["a", ""] ⟨some "1", .left, "s"⟩) := by
  intro text other key first second tokens others
  have found : tokens? text = some tokens := by decide +kernel
  have cut : tokenize text = .ok tokens := by rw [tokenize, found]
  have foundOther : tokens? other = some others := by decide +kernel
  have cutOther : tokenize other = .ok others := by rw [tokenize, foundOther]
  have isKey : IsKey key ["a", ""] := .listed (.more rfl (.last rfl))
  have list : EntryList (first ++ .mark .comma :: .word "L" :: .mark .comma :: second)
      [⟨"write", some "1"⟩, ⟨"L", none⟩, ⟨"write", some "2"⟩] :=
    .more (.valued "write" rfl) (.more (.bare "L") (.last (.valued "write" rfl)))
  have otherList : EntryList (second ++ .mark .comma :: (first ++ .mark .comma :: [.word "L"]))
      [⟨"write", some "2"⟩, ⟨"write", some "1"⟩, ⟨"L", none⟩] :=
    .more (.valued "write" rfl) (.more (.valued "write" rfl) (.last (.bare "L")))
  have reordered : Reordered tokens others
      [⟨"write", some "1"⟩, ⟨"L", none⟩, ⟨"write", some "2"⟩]
      [⟨"write", some "2"⟩, ⟨"write", some "1"⟩, ⟨"L", none⟩] :=
    ⟨⟨key, ["a", ""], _, _, isKey, list, otherList, rfl, rfl⟩, by decide⟩
  have accepted := readTableLine_eq_ok_iff text (some "s")
  have read : readTableLine text (some "s") =
      .ok (.transition ["a", ""] ⟨some "2", .left, "s"⟩) := by
    rw [accepted.1 tokens cut]
    have made : MakesAction "s" [⟨"write", some "1"⟩, ⟨"L", none⟩, ⟨"write", some "2"⟩]
        ⟨some "2", .left, "s"⟩ := actionOf_eq_ok_iff.mp rfl
    exact .transition isKey (.braced list made)
  exact ⟨cut, cutOther, reordered, read,
    (accepted.2.2 tokens other others _ _ cut cutOther reordered _ _ read).1⟩

end TapeLab.Structured
