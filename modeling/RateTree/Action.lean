import RateTree.Error

/-!
# Actions

An action runs on a state and may fail; the state it leaves behind is there in either case. A
failure is an error, which a caller may undo or pass over, or a fault, which ends the operation
where it stands. Plain computations that fail with an error or a fault take part in actions by
lifting.
-/

namespace RateTree

/-- Why an operation has no result. -/
inductive Failure where
  | error (cause : Error)
  | fault (cause : Fault)
deriving DecidableEq

/-- The text under which a failure is reported. -/
def Failure.message : Failure → String
  | .error cause => cause.message
  | .fault cause => cause.message

/-- The result of an operation, or its failure. -/
abbrev Outcome (α : Type) := Except Failure α

instance : MonadLift (Except Error) (Except Failure) where
  monadLift result := result.mapError .error

instance : MonadLift (Except Fault) (Except Failure) where
  monadLift result := result.mapError .fault

namespace Outcome

variable {ε α β : Type}

theorem bind_eq_ok {outcome : Except ε α} {next : α → Except ε β} {result : β} :
    (outcome >>= next) = .ok result ↔ ∃ value, outcome = .ok value ∧ next value = .ok result := by
  cases outcome <;> simp [bind, Except.bind]

@[simp]
theorem pure_eq_ok {value result : α} :
    (pure value : Except ε α) = .ok result ↔ value = result := by
  simp [pure, Except.pure]

theorem map_eq_ok {outcome : Except ε α} {change : α → β} {result : β} :
    change <$> outcome = .ok result ↔ ∃ value, outcome = .ok value ∧ change value = result := by
  cases outcome <;> simp [Functor.map, Except.map]

@[simp]
theorem liftError_eq_ok {checked : Except Error α} {value : α} :
    (liftM checked : Outcome α) = .ok value ↔ checked = .ok value := by
  cases checked with
  | error cause =>
      change (.error (.error cause) : Outcome α) = .ok value ↔ _
      simp
  | ok result =>
      change (.ok result : Outcome α) = .ok value ↔ _
      simp

@[simp]
theorem liftFault_eq_ok {computed : Except Fault α} {value : α} :
    (liftM computed : Outcome α) = .ok value ↔ computed = .ok value := by
  cases computed with
  | error cause =>
      change (.error (.fault cause) : Outcome α) = .ok value ↔ _
      simp
  | ok result =>
      change (.ok result : Outcome α) = .ok value ↔ _
      simp

end Outcome

/-- A computation on a state that may fail and always leaves a state behind. -/
def Action (σ α : Type) := σ → Outcome α × σ

namespace Action

variable {σ τ α β : Type}

/-- The outcome of an action and the state it leaves behind. -/
@[inline]
def run (action : Action σ α) (state : σ) : Outcome α × σ := action state

instance : Monad (Action σ) where
  pure value := fun state => (.ok value, state)
  bind action next := fun state =>
    match action state with
    | (.ok value, after) => next value after
    | (.error failure, after) => (.error failure, after)

instance : MonadLift (Except Failure) (Action σ) where
  monadLift outcome := fun state => (outcome, state)

/-- Fails with an error and leaves the state as it is. -/
def refuse (cause : Error) : Action σ α := fun state => (.error (.error cause), state)

/-- The state as it is. -/
def get : Action σ σ := fun state => (.ok state, state)

/-- Changes the state. -/
def modify (change : σ → σ) : Action σ Unit := fun state => (.ok (), change state)

/-- Runs an action on a part of the state. -/
@[inline]
def focus (part : σ → τ) (replace : σ → τ → σ) (action : Action τ α) : Action σ α := fun state =>
  let (outcome, after) := action (part state)
  (outcome, replace state after)

/-- Runs an action; if it is refused with an error, `undo` runs before the error is passed on. -/
def undoOnError (action : Action σ α) (undo : Action σ Unit) : Action σ α := fun state =>
  match action state with
  | (.error (.error cause), after) =>
    match undo after with
    | (.ok (), restored) => (.error (.error cause), restored)
    | (.error failure, restored) => (.error failure, restored)
  | finished => finished

/-- Runs an action and passes over the error it may be refused with; a fault is passed on. -/
def passOver (action : Action σ Unit) : Action σ Unit := fun state =>
  match action state with
  | (.error (.error _), after) => (.ok (), after)
  | finished => finished

/-- Passes every error of an action through a function. -/
def mapError (change : Error → Error) (action : Action σ α) : Action σ α := fun state =>
  match action state with
  | (.error (.error cause), after) => (.error (.error (change cause)), after)
  | finished => finished

/-- Runs an action for each element of a list, from the first on, up to the first failure. -/
def forEach (items : List α) (action : α → Action σ Unit) : Action σ Unit :=
  match items with
  | [] => pure ()
  | item :: rest => do
    action item
    forEach rest action

@[simp]
theorem pure_apply (value : α) (state : σ) : (pure value : Action σ α) state = (.ok value, state) :=
  rfl

theorem bind_apply (action : Action σ α) (next : α → Action σ β) (state : σ) :
    (action >>= next) state =
      match action state with
      | (.ok value, after) => next value after
      | (.error failure, after) => (.error failure, after) := rfl

theorem bind_eq_ok {action : Action σ α} {next : α → Action σ β} {state after : σ} {result : β} :
    (action >>= next) state = (.ok result, after) ↔
      ∃ value between, action state = (.ok value, between) ∧
        next value between = (.ok result, after) := by
  rw [bind_apply]
  constructor
  · intro finished
    split at finished
    · next value between first => exact ⟨value, between, first, finished⟩
    · cases finished
  · rintro ⟨value, between, first, second⟩
    rw [first]
    exact second

theorem bind_eq_error {action : Action σ α} {next : α → Action σ β} {state after : σ}
    {failure : Failure} :
    (action >>= next) state = (.error failure, after) ↔
      action state = (.error failure, after) ∨
        ∃ value between, action state = (.ok value, between) ∧
          next value between = (.error failure, after) := by
  rw [bind_apply]
  constructor
  · intro finished
    split at finished
    · next value between first => exact .inr ⟨value, between, first, finished⟩
    · next cause between first =>
      cases finished
      exact .inl first
  · rintro (first | ⟨value, between, first, second⟩)
    · rw [first]
    · rw [first]
      exact second

theorem bind_pure_bind {γ : Type} {action : Action σ α} {change : α → β} {next : β → Action σ γ} :
    ((action >>= fun value => pure (change value)) >>= next) =
      action >>= fun value => next (change value) := by
  funext state
  simp only [bind_apply]
  rcases action state with ⟨failure | value, after⟩
  · rfl
  · rfl

theorem bind_pure_unit {action : Action σ Unit} : (action >>= fun _ => pure ()) = action := by
  funext state
  rw [bind_apply]
  rcases action state with ⟨failure | ⟨⟩, after⟩
  · rfl
  · rfl

/-- A change of the result leaves the same state behind. -/
theorem bind_pure_snd (action : Action σ α) (change : α → β) (state : σ) :
    ((action >>= fun value => pure (change value)) state).2 = (action state).2 := by
  rw [bind_apply]
  rcases action state with ⟨failure | value, after⟩
  · rfl
  · rfl

theorem map_apply (action : Action σ α) (change : α → β) (state : σ) :
    (change <$> action) state =
      match action state with
      | (.ok value, after) => (.ok (change value), after)
      | (.error failure, after) => (.error failure, after) := rfl

@[simp]
theorem lift_apply (outcome : Outcome α) (state : σ) :
    (liftM outcome : Action σ α) state = (outcome, state) := rfl

@[simp]
theorem liftError_apply (checked : Except Error α) (state : σ) :
    (liftM checked : Action σ α) state = (liftM checked, state) := rfl

@[simp]
theorem refuse_apply (cause : Error) (state : σ) :
    (refuse cause : Action σ α) state = (.error (.error cause), state) := rfl

@[simp]
theorem get_apply (state : σ) : (get : Action σ σ) state = (.ok state, state) := rfl

@[simp]
theorem modify_apply (change : σ → σ) (state : σ) :
    modify change state = (.ok (), change state) := rfl

/-- An action that is refused is undone before its error is passed on. -/
theorem undoOnError_of_error {action : Action σ α} {undo : Action σ Unit} {state after : σ}
    {cause : Error} (failed : action state = (.error (.error cause), after)) :
    action.undoOnError undo state = (undo >>= fun _ => refuse cause) after := by
  simp only [undoOnError, failed, bind_apply]
  rcases undo after with ⟨failure | ⟨⟩, restored⟩
  · rfl
  · rfl

/-- An action that is done has not been undone. -/
theorem undoOnError_eq_ok {action : Action σ α} {undo : Action σ Unit} {state after : σ} {value : α}
    (done : action.undoOnError undo state = (.ok value, after)) :
    action state = (.ok value, after) := by
  simp only [undoOnError] at done
  split at done
  · split at done
    · cases done
    · cases done
  · exact done

theorem undoOnError_eq_fault {action : Action σ α} {undo : Action σ Unit} {state after : σ}
    {cause : Fault} (failed : action.undoOnError undo state = (.error (.fault cause), after)) :
    action state = (.error (.fault cause), after) ∨
      ∃ refused, undo refused = (.error (.fault cause), after) := by
  simp only [undoOnError] at failed
  split at failed
  · next refused _ =>
    split at failed
    · cases failed
    · next failure restored undoing =>
      cases failed
      exact .inr ⟨refused, undoing⟩
  · exact .inl failed

end Action

end RateTree
