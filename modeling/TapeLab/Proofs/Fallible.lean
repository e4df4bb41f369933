import Mathlib.Order.Defs.Unbundled

/-!
# Operations that may fail

Sessions, pool runs and everything that uses a workspace are operations on a state that
may fail and then keep the state they failed in.  An operation is known by its result and
the state after it; these lemmas say both for every way in which operations are put
together, so that no proof opens the monad.  A result that depends on no state is known by
`bind_eq_ok_iff`.

What every operation keeps is a relation between the state before and the state after.
`Relates` says that an operation keeps it however the operation ends.  What holds of every value
that an operation succeeds with is said by `Yields`.
-/

namespace TapeLab.Fallible

variable {ε σ α β : Type}

/-- A success is known by its value. -/
theorem eq_ok_of_toOption {result : Except ε α} {value : α}
    (found : result.toOption = some value) : result = .ok value := by
  cases result with
  | error fault => cases found
  | ok other => rw [Option.some.inj found]

/-- A result is a success exactly if both of its parts are. -/
theorem bind_eq_ok_iff {first : Except ε α} {next : α → Except ε β} {value : β} :
    (first >>= next) = .ok value ↔ ∃ given, first = .ok given ∧ next given = .ok value := by
  cases first with
  | error fault => exact ⟨nofun, fun ⟨_, impossible, _⟩ => nomatch impossible⟩
  | ok given =>
      constructor
      · exact fun succeeds => ⟨given, rfl, succeeds⟩
      · rintro ⟨_, ⟨⟩, succeeds⟩
        exact succeeds

/-- Another name for the failures changes no success. -/
theorem mapError_eq_ok_iff {ε' : Type} {result : Except ε α} {rename : ε → ε'} {value : α} :
    result.mapError rename = .ok value ↔ result = .ok value := by
  cases result with
  | error fault => exact ⟨nofun, nofun⟩
  | ok given =>
      exact ⟨fun same => congrArg Except.ok (Except.ok.inj same),
        fun same => congrArg Except.ok (Except.ok.inj same)⟩

/-- An operation and what follows it: a failure of the first is the failure of both. -/
theorem run_bind (first : ExceptT ε (StateM σ) α) (next : α → ExceptT ε (StateM σ) β)
    (state : σ) :
    ExceptT.run (first >>= next) state =
      match first.run state with
      | (.ok value, after) => (next value).run after
      | (.error fault, after) => (.error fault, after) := by
  change (match first state with | (result, after) => ExceptT.bindCont next result after) = _
  unfold ExceptT.run
  cases first state with
  | mk result after => cases result <;> rfl

/-- What follows a success. -/
theorem run_bind_ok {first : ExceptT ε (StateM σ) α} {next : α → ExceptT ε (StateM σ) β}
    {state after : σ} {value : α} (succeeds : first.run state = (.ok value, after)) :
    ExceptT.run (first >>= next) state = (next value).run after := by
  rw [run_bind, succeeds]

/-- Nothing follows a failure. -/
theorem run_bind_error {first : ExceptT ε (StateM σ) α} {next : α → ExceptT ε (StateM σ) β}
    {state after : σ} {fault : ε} (fails : first.run state = (.error fault, after)) :
    ExceptT.run (first >>= next) state = (.error fault, after) := by
  rw [run_bind, fails]

/-- An operation is known by its result and the state after it. -/
theorem run_eq_of_fst {operation : ExceptT ε (StateM σ) α} {state : σ} {result : Except ε α}
    (ended : (operation.run state).1 = result) :
    operation.run state = (result, (operation.run state).2) :=
  Prod.ext ended rfl

/-- What succeeds did so in both of its parts. -/
theorem exists_of_bind_ok {first : ExceptT ε (StateM σ) α} {next : α → ExceptT ε (StateM σ) β}
    {state : σ} {value : β} (succeeds : (ExceptT.run (first >>= next) state).1 = .ok value) :
    ∃ given between, first.run state = (.ok given, between) ∧
      ExceptT.run (first >>= next) state = (next given).run between := by
  cases ended : first.run state with
  | mk result between =>
      cases result with
      | error fault =>
          rw [run_bind_error ended] at succeeds
          cases succeeds
      | ok given => exact ⟨given, between, rfl, run_bind_ok ended⟩

@[simp]
theorem run_pure (value : α) (state : σ) :
    ExceptT.run (pure value : ExceptT ε (StateM σ) α) state = (.ok value, state) :=
  rfl

@[simp]
theorem run_throw (fault : ε) (state : σ) :
    ExceptT.run (throw fault : ExceptT ε (StateM σ) α) state = (.error fault, state) :=
  rfl

@[simp]
theorem run_get (state : σ) :
    ExceptT.run (get : ExceptT ε (StateM σ) σ) state = (.ok state, state) :=
  rfl

@[simp]
theorem run_set (next state : σ) :
    ExceptT.run (set next : ExceptT ε (StateM σ) PUnit) state = (.ok ⟨⟩, next) :=
  rfl

@[simp]
theorem run_modify (change : σ → σ) (state : σ) :
    ExceptT.run (modify change : ExceptT ε (StateM σ) PUnit) state = (.ok ⟨⟩, change state) :=
  rfl

@[simp]
theorem run_liftExcept (result : Except ε α) (state : σ) :
    ExceptT.run (liftExcept result : ExceptT ε (StateM σ) α) state = (result, state) := by
  cases result <;> rfl

/-- A failure is handled in the state it left. -/
theorem run_tryCatch (body : ExceptT ε (StateM σ) α) (handler : ε → ExceptT ε (StateM σ) α)
    (state : σ) :
    ExceptT.run (tryCatch body handler) state =
      match body.run state with
      | (.ok value, after) => (.ok value, after)
      | (.error fault, after) => (handler fault).run after := by
  change (match body state with
    | (result, after) => (match result with
      | .ok value => (pure (.ok value) : StateM σ (Except ε α))
      | .error fault => (handler fault).run) after) = _
  unfold ExceptT.run
  cases body state with
  | mk result after => cases result <;> rfl

/-- However an operation ends, the state it leaves is related to the one it began in. -/
def Relates (relation : σ → σ → Prop) (operation : ExceptT ε (StateM σ) α) : Prop :=
  ∀ state, relation state (operation.run state).2

namespace Relates

variable {relation : σ → σ → Prop}

/-- A looser relation is kept as well. -/
theorem mono {looser : σ → σ → Prop} {operation : ExceptT ε (StateM σ) α}
    (relates : Relates relation operation)
    (looseness : ∀ before after, relation before after → looser before after) :
    Relates looser operation :=
  fun state => looseness _ _ (relates state)

variable [IsPreorder σ relation]

theorem pure (value : α) : Relates relation (pure value : ExceptT ε (StateM σ) α) :=
  fun state => refl_of relation state

theorem throw (fault : ε) : Relates relation (throw fault : ExceptT ε (StateM σ) α) :=
  fun state => refl_of relation state

theorem get : Relates relation (get : ExceptT ε (StateM σ) σ) :=
  fun state => refl_of relation state

/-- Two related operations, one after the other. -/
theorem bind {first : ExceptT ε (StateM σ) α} {next : α → ExceptT ε (StateM σ) β}
    (firstRelates : Relates relation first)
    (nextRelates : ∀ value, Relates relation (next value)) :
    Relates relation (first >>= next) := by
  intro state
  have begun := firstRelates state
  rw [run_bind]
  cases ended : first.run state with
  | mk result after =>
      rw [ended] at begun
      cases result with
      | error fault => exact begun
      | ok value => exact trans_of relation begun (nextRelates value after)

/-- A related operation whose failures are handled by related ones. -/
theorem tryCatch {body : ExceptT ε (StateM σ) α} {handler : ε → ExceptT ε (StateM σ) α}
    (bodyRelates : Relates relation body)
    (handlerRelates : ∀ fault, Relates relation (handler fault)) :
    Relates relation (tryCatch body handler) := by
  intro state
  have begun := bodyRelates state
  rw [run_tryCatch]
  cases ended : body.run state with
  | mk result after =>
      rw [ended] at begun
      cases result with
      | ok value => exact begun
      | error fault => exact trans_of relation begun (handlerRelates fault after)

/-- A result that is known before changes nothing. -/
theorem liftExcept (result : Except ε α) :
    Relates relation (liftExcept result : ExceptT ε (StateM σ) α) := by
  cases result with
  | error fault => exact throw fault
  | ok value => exact pure value

/-- A loop whose every turn is related. -/
theorem forM {items : List α} {operation : α → ExceptT ε (StateM σ) PUnit}
    (relates : ∀ item ∈ items, Relates relation (operation item)) :
    Relates relation (items.forM operation) := by
  induction items with
  | nil => exact pure _
  | cons item rest inductionHypothesis =>
      refine bind (relates item List.mem_cons_self) fun _ => ?_
      exact inductionHypothesis fun other member =>
        relates other (List.mem_cons_of_mem item member)

end Relates

/-- Whatever an operation succeeds with has a property. -/
def Yields (property : α → Prop) (operation : ExceptT ε (StateM σ) α) : Prop :=
  ∀ state value, (operation.run state).1 = .ok value → property value

namespace Yields

variable {property : α → Prop}

theorem pure {value : α} (holds : property value) :
    Yields property (pure value : ExceptT ε (StateM σ) α) := by
  rintro _ _ ⟨⟩
  exact holds

theorem throw (fault : ε) : Yields property (throw fault : ExceptT ε (StateM σ) α) := by
  rintro _ _ ⟨⟩

/-- What follows a success may rely on what its value is known to be. -/
theorem bind {between : β → Prop} {first : ExceptT ε (StateM σ) β}
    {next : β → ExceptT ε (StateM σ) α} (begins : Yields between first)
    (goesOn : ∀ value, between value → Yields property (next value)) :
    Yields property (first >>= next) := by
  intro state value succeeds
  obtain ⟨given, middle, done, later⟩ := exists_of_bind_ok succeeds
  rw [later] at succeeds
  exact goesOn given (begins state given (by rw [done])) middle value succeeds

/-- What follows anything. -/
theorem after {first : ExceptT ε (StateM σ) β} {next : β → ExceptT ε (StateM σ) α}
    (goesOn : ∀ value, Yields property (next value)) : Yields property (first >>= next) :=
  bind (fun _ _ _ => trivial) fun value (_ : True) => goesOn value

end Yields

end TapeLab.Fallible
