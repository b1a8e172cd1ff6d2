import RateTree.Action

/-!
# What actions ensure

An action that runs on a device ends in a value, in an error, which its caller may undo, or in a
fault. `Ensures` says what holds in the first two cases. A fault ends a whole operation with its work
half done; all that is known then is that the state is no longer intact, and a state that is intact
was intact before. The rules below follow the way actions are put together.
-/

namespace RateTree

namespace Action

variable {σ α β : Type}

/-- An action run on a state ensures one thing of its value and the state it leaves, and another
thing of the state it leaves with an error. -/
def Ensures (intact : σ → Prop) (action : Action σ α) (state : σ) (done : α → σ → Prop)
    (refused : σ → Prop) : Prop :=
  match action state with
  | (.ok value, after) => (intact after → intact state) ∧ done value after
  | (.error (.error _), after) => (intact after → intact state) ∧ refused after
  | (.error (.fault _), after) => ¬intact after

namespace Ensures

variable {intact : σ → Prop} {action : Action σ α} {state after : σ} {done : α → σ → Prop}
  {refused : σ → Prop}

/-! ## What is ensured -/

theorem of_ok (ensures : Ensures intact action state done refused) {value : α}
    (ended : action state = (.ok value, after)) :
    (intact after → intact state) ∧ done value after := by
  rwa [Ensures, ended] at ensures

theorem of_error (ensures : Ensures intact action state done refused) {cause : Error}
    (ended : action state = (.error (.error cause), after)) :
    (intact after → intact state) ∧ refused after := by
  rwa [Ensures, ended] at ensures

theorem of_fault (ensures : Ensures intact action state done refused) {cause : Fault}
    (ended : action state = (.error (.fault cause), after)) : ¬intact after := by
  rwa [Ensures, ended] at ensures

/-- A state that is intact in the end was intact from the start. -/
theorem was_intact (ensures : Ensures intact action state done refused)
    (still : intact (action state).2) : intact state := by
  rcases ended : action state with ⟨(cause | cause) | value, after⟩ <;> rw [ended] at still
  · exact (ensures.of_error ended).1 still
  · exact absurd still (ensures.of_fault ended)
  · exact (ensures.of_ok ended).1 still

/-- What is ensured under a premise may be taken to say so. -/
theorem given {premise : Prop}
    (always : Ensures intact action state (fun _ _ => True) fun _ => True)
    (ensures : premise → Ensures intact action state done refused) :
    Ensures intact action state (fun value after => premise → done value after)
      fun after => premise → refused after := by
  rcases ended : action state with ⟨(cause | cause) | value, after⟩
  · rw [Ensures, ended]
    exact ⟨(always.of_error ended).1, fun holds => ((ensures holds).of_error ended).2⟩
  · rw [Ensures, ended]
    exact always.of_fault ended
  · rw [Ensures, ended]
    exact ⟨(always.of_ok ended).1, fun holds => ((ensures holds).of_ok ended).2⟩

/-- An action that never ends in a fault leaves alone whether the state is intact, if what it ensures
says so. -/
theorem of_total (total : Ensures (fun _ => True) action state done refused)
    (kept : ∀ value after, done value after → intact after → intact state)
    (kept_refused : ∀ after, refused after → intact after → intact state) :
    Ensures intact action state done refused := by
  rcases ended : action state with ⟨(cause | cause) | value, after⟩
  · have holds := (total.of_error ended).2
    rw [Ensures, ended]
    exact ⟨kept_refused after holds, holds⟩
  · exact absurd trivial (total.of_fault ended)
  · have holds := (total.of_ok ended).2
    rw [Ensures, ended]
    exact ⟨kept value after holds, holds⟩

/-- An action that ends neither in an error nor in a fault ends in a value. -/
theorem exists_ok (total : Ensures (fun _ => True) action state done fun _ => False) :
    ∃ value after, action state = (.ok value, after) ∧ done value after := by
  rcases ended : action state with ⟨(cause | cause) | value, after⟩
  · exact (total.of_error ended).2.elim
  · exact absurd trivial (total.of_fault ended)
  · exact ⟨value, after, rfl, (total.of_ok ended).2⟩

/-! ## Rules -/

theorem weaken (ensures : Ensures intact action state done refused) {later : α → σ → Prop}
    {failed : σ → Prop} (on_ok : ∀ value after, done value after → later value after)
    (on_error : ∀ after, refused after → failed after) :
    Ensures intact action state later failed := by
  rcases ended : action state with ⟨(cause | cause) | value, after⟩
  · rcases ensures.of_error ended with ⟨still, holds⟩
    rw [Ensures, ended]
    exact ⟨still, on_error after holds⟩
  · rw [Ensures, ended]
    exact ensures.of_fault ended
  · rcases ensures.of_ok ended with ⟨still, holds⟩
    rw [Ensures, ended]
    exact ⟨still, on_ok value after holds⟩

/-- What holds of the state that an action leaves in any case is ensured besides. -/
theorem and_after (ensures : Ensures intact action state done refused) (holds : σ → Prop)
    (always : holds (action state).2) :
    Ensures intact action state (fun value after => done value after ∧ holds after)
      fun after => refused after ∧ holds after := by
  rcases ended : action state with ⟨(cause | cause) | value, after⟩ <;> rw [ended] at always
  · rcases ensures.of_error ended with ⟨still, holds⟩
    rw [Ensures, ended]
    exact ⟨still, holds, always⟩
  · rw [Ensures, ended]
    exact ensures.of_fault ended
  · rcases ensures.of_ok ended with ⟨still, holds⟩
    rw [Ensures, ended]
    exact ⟨still, holds, always⟩

theorem pure {value : α} (holds : done value state) :
    Ensures intact (Pure.pure value) state done refused := ⟨id, holds⟩

theorem refuse {cause : Error} (holds : refused state) :
    Ensures intact (Action.refuse cause : Action σ α) state done refused := ⟨id, holds⟩

theorem get : Ensures intact Action.get state (fun value after => value = state ∧ after = state)
    refused := ⟨id, rfl, rfl⟩

theorem modify {change : σ → σ} (was_intact : intact (change state) → intact state) :
    Ensures intact (Action.modify change) state (fun _ after => after = change state) refused :=
  ⟨was_intact, rfl⟩

/-- What follows a refusal does not run. -/
theorem refuse_bind {cause : Error} {next : α → Action σ β} {later : β → σ → Prop}
    (holds : refused state) : Ensures intact (Action.refuse cause >>= next) state later refused :=
  ⟨id, holds⟩

/-- A check does not run on the state at all. -/
theorem check {checked : Except Error α} (holds : refused state) :
    Ensures intact (liftM checked) state (fun value after => checked = .ok value ∧ after = state)
      refused := by
  cases checked with
  | error cause => exact refuse holds
  | ok value => exact pure ⟨rfl, rfl⟩

theorem bind {next : α → Action σ β} {between : α → σ → Prop} {later : β → σ → Prop}
    (first : Ensures intact action state between refused)
    (second : ∀ value after, between value after →
      Ensures intact (next value) after later refused) :
    Ensures intact (action >>= next) state later refused := by
  rcases ended : action state with ⟨(cause | cause) | value, after⟩
  · rw [Ensures, Action.bind_apply, ended]
    exact first.of_error ended
  · rw [Ensures, Action.bind_apply, ended]
    exact first.of_fault ended
  · rcases first.of_ok ended with ⟨still, holds⟩
    have rest := second value after holds
    simp only [Ensures, Action.bind_apply, ended]
    rcases finished : next value after with ⟨(cause | cause) | result, last⟩
    · rcases rest.of_error finished with ⟨kept, failed⟩
      exact ⟨fun sound => still (kept sound), failed⟩
    · exact rest.of_fault finished
    · rcases rest.of_ok finished with ⟨kept, reached⟩
      exact ⟨fun sound => still (kept sound), reached⟩

theorem bind_ok {next : α → Action σ β} {value : α} {between : σ} {later : β → σ → Prop}
    (first : action state = (.ok value, between)) (was_intact : intact between → intact state)
    (second : Ensures intact (next value) between later refused) :
    Ensures intact (action >>= next) state later refused := by
  have done : Ensures intact action state (fun result after => result = value ∧ after = between)
      refused := by
    rw [Ensures, first]
    exact ⟨was_intact, rfl, rfl⟩
  apply done.bind
  rintro _ _ ⟨rfl, rfl⟩
  exact second

theorem undoOnError {undo : Action σ Unit} {failed : σ → Prop}
    (first : Ensures intact action state done failed)
    (undone : ∀ after, failed after → Ensures intact undo after (fun _ => refused) refused) :
    Ensures intact (action.undoOnError undo) state done refused := by
  rcases ended : action state with ⟨(cause | cause) | value, after⟩
  · rcases first.of_error ended with ⟨still, holds⟩
    have back := undone after holds
    simp only [Ensures, Action.undoOnError, ended]
    rcases finished : undo after with ⟨(second | second) | ⟨⟩, restored⟩
    · rcases back.of_error finished with ⟨kept, reached⟩
      exact ⟨fun sound => still (kept sound), reached⟩
    · exact back.of_fault finished
    · rcases back.of_ok finished with ⟨kept, reached⟩
      exact ⟨fun sound => still (kept sound), reached⟩
  · simp only [Ensures, Action.undoOnError, ended]
    exact first.of_fault ended
  · simp only [Ensures, Action.undoOnError, ended]
    exact first.of_ok ended

/-- What is never refused is never undone. -/
theorem undoOnError_of_never {undo : Action σ Unit}
    (first : Ensures intact action state done fun _ => False) :
    Ensures intact (action.undoOnError undo) state done refused :=
  first.undoOnError fun _ never => never.elim

/-- What is passed over has to do for an end. -/
theorem passOver {action : Action σ Unit} {done : Unit → σ → Prop} {failed : σ → Prop}
    (first : Ensures intact action state done failed)
    (passed : ∀ after, failed after → done () after) :
    Ensures intact action.passOver state done refused := by
  rcases ended : action state with ⟨(cause | cause) | value, after⟩
  · rcases first.of_error ended with ⟨still, holds⟩
    simp only [Ensures, Action.passOver, ended]
    exact ⟨still, passed after holds⟩
  · simp only [Ensures, Action.passOver, ended]
    exact first.of_fault ended
  · simp only [Ensures, Action.passOver, ended]
    exact first.of_ok ended

/-- In what is never refused there is nothing to pass over. -/
theorem passOver_of_never {action : Action σ Unit} {done : Unit → σ → Prop}
    (first : Ensures intact action state done fun _ => False) :
    Ensures intact action.passOver state done refused :=
  first.passOver fun _ never => never.elim

theorem mapError {change : Error → Error} (first : Ensures intact action state done refused) :
    Ensures intact (action.mapError change) state done refused := by
  rcases ended : action state with ⟨(cause | cause) | value, after⟩
  · simp only [Ensures, Action.mapError, ended]
    exact first.of_error ended
  · simp only [Ensures, Action.mapError, ended]
    exact first.of_fault ended
  · simp only [Ensures, Action.mapError, ended]
    exact first.of_ok ended

/-- What holds for the items still to come, when each item takes itself off, holds for none. -/
theorem forEach {items : List α} {each : α → Action σ Unit} (holds : List α → σ → Prop)
    (start : holds items state)
    (step : ∀ item rest state, holds (item :: rest) state →
      Ensures intact (each item) state (fun _ => holds rest) refused) :
    Ensures intact (Action.forEach items each) state (fun _ => holds []) refused := by
  induction items generalizing state with
  | nil => exact pure start
  | cons item rest ih =>
      apply (step item rest state start).bind
      intro _ after reached
      exact ih reached

end Ensures

end Action

end RateTree
