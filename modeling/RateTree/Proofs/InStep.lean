import RateTree.Proofs.LinkedDevice
import RateTree.Proofs.Runs

/-!
# Actions in step

Two states of a device may differ in how the device is reached and still be taken through the same
actions. An action runs in step if related states are related again after it, and it ends with the same
value on both or with failures that differ in the text of an admin error at most. The second state may
fall behind for want of resources: nothing is said of an action that leaves it unsound, and an action
never makes it sound again. If the calls that reach the device run in step, then so does everything that
a limiter does.
-/

namespace RateTree

/-- Two errors are the same, but for what the error of a command says. -/
inductive Error.Resembles : Error → Error → Prop where
  | same (cause : Error) : Resembles cause cause
  | admin (command : AdminCommand) (one other : AdminFailure) :
      Resembles (.admin command one) (.admin command other)

/-- Whether failures are the same but for what admin errors say. -/
inductive Failure.Resembles : Failure → Failure → Prop where
  | error {one other : Error} (resembles : one.Resembles other) :
      Resembles (.error one) (.error other)
  | fault (cause : Fault) : Resembles (.fault cause) (.fault cause)

theorem Failure.Resembles.refl (failure : Failure) : failure.Resembles failure := by
  cases failure with
  | error cause => exact .error (.same cause)
  | fault cause => exact .fault cause

/-- Two outcomes are the same, but for what the error of a command says. -/
inductive Outcome.Resembles {α : Type} : Outcome α → Outcome α → Prop where
  | ok (value : α) : Resembles (.ok value) (.ok value)
  | error {one other : Failure} (resembles : one.Resembles other) :
      Resembles (.error one) (.error other)

namespace Action

variable {σ α β : Type} {related : σ → σ → Prop} {sound : σ → Prop}

/-- How an action ends on related states that it takes through the same. -/
inductive EndsAlike (related : σ → σ → Prop) : Outcome α × σ → Outcome α × σ → Prop where
  | ok (value : α) {one other : σ} (pair : related one other) :
      EndsAlike related (.ok value, one) (.ok value, other)
  | error {failure cause : Failure} (resembles : failure.Resembles cause) {one other : σ}
      (pair : related one other) : EndsAlike related (.error failure, one) (.error cause, other)

namespace EndsAlike

variable {left right : Outcome α × σ}

theorem of_same (outcome : Outcome α) {one other : σ} (pair : related one other) :
    EndsAlike related (outcome, one) (outcome, other) := by
  cases outcome with
  | error failure => exact .error (.refl failure) pair
  | ok value => exact .ok value pair

theorem outcomes (ends : EndsAlike related left right) : Outcome.Resembles left.1 right.1 := by
  cases ends with
  | ok value pair => exact .ok value
  | error resembles pair => exact .error resembles

theorem states (ends : EndsAlike related left right) : related left.2 right.2 := by
  cases ends with
  | ok value pair => exact pair
  | error resembles pair => exact pair

end EndsAlike

/-- An action takes related states through the same, for as long as the second one stays sound. -/
structure InStep (related : σ → σ → Prop) (sound : σ → Prop) (action : Action σ α) : Prop where
  was_sound : ∀ state, sound (action state).2 → sound state
  keeps : ∀ one other, related one other → sound (action other).2 →
    EndsAlike related (action one) (action other)

namespace InStep

/-! ## Rules -/

theorem of_still {action : Action σ α} (outcome : Outcome α)
    (still : ∀ state, action state = (outcome, state)) : InStep related sound action where
  was_sound state holds := by rwa [still] at holds
  keeps one other pair _ := by
    rw [still, still]
    exact .of_same outcome pair

theorem pure (value : α) : InStep related sound (Pure.pure value) :=
  of_still (.ok value) fun _ => rfl

theorem refuse (cause : Error) : InStep related sound (Action.refuse cause : Action σ α) :=
  of_still (.error (.error cause)) fun _ => rfl

theorem lift (outcome : Outcome α) : InStep related sound (liftM outcome : Action σ α) :=
  of_still outcome fun _ => rfl

theorem check (checked : Except Error α) : InStep related sound (liftM checked : Action σ α) :=
  of_still (liftM checked) fun _ => rfl

theorem bind {action : Action σ α} {next : α → Action σ β} (first : InStep related sound action)
    (second : ∀ value, InStep related sound (next value)) :
    InStep related sound (action >>= next) where
  was_sound state holds := by
    have before := first.was_sound state
    rw [bind_apply] at holds
    rcases ended : action state with ⟨failure | value, after⟩
    · rw [ended] at holds before
      exact before holds
    · rw [ended] at holds before
      exact before ((second value).was_sound after holds)
  keeps one other pair holds := by
    have ends := first.keeps one other pair
    rw [bind_apply] at holds ⊢
    rw [bind_apply]
    generalize action one = left at ends ⊢
    rcases ended : action other with ⟨failure | value, after⟩
    · rw [ended] at holds ends
      cases ends holds with
      | error resembles pair => exact .error resembles pair
    · rw [ended] at holds ends
      cases ends ((second value).was_sound after holds) with
      | ok value pair => exact (second value).keeps _ after pair holds

/-- What looks at the whole state first may go by what related states have in common. -/
theorem get_bind {next : σ → Action σ α}
    (same : ∀ one other, related one other → next one = next other)
    (rest : ∀ state, InStep related sound (next state)) :
    InStep related sound (Action.get >>= next) where
  was_sound state holds := (rest state).was_sound state holds
  keeps one other pair holds := by
    rw [bind_apply, bind_apply, get_apply, get_apply]
    simp only [same one other pair]
    exact (rest other).keeps one other pair holds

theorem passOver {action : Action σ Unit} (inStep : InStep related sound action) :
    InStep related sound action.passOver where
  was_sound state holds := by
    have before := inStep.was_sound state
    simp only [Action.passOver] at holds
    rcases ended : action state with ⟨(cause | cause) | value, after⟩ <;> rw [ended] at holds before <;>
      exact before holds
  keeps one other pair holds := by
    have ends := inStep.keeps one other pair
    simp only [Action.passOver] at holds ⊢
    generalize action one = left at ends ⊢
    rcases ended : action other with ⟨(cause | cause) | ⟨⟩, after⟩ <;> rw [ended] at holds ends
    · cases ends holds with
      | error resembles pair =>
          cases resembles with
          | error resembles => exact .ok () pair
    · cases ends holds with
      | error resembles pair =>
          cases resembles with
          | fault cause => exact .error (.fault cause) pair
    · cases ends holds with
      | ok value pair => exact .ok () pair

/-- After the same, errors that resemble each other are passed on. -/
theorem refuse_after {undo : Action σ Unit} (undone : InStep related sound undo) {cause again : Error}
    (resembles : cause.Resembles again) {one other : σ} (pair : related one other)
    (holds : sound ((undo >>= fun _ => (Action.refuse again : Action σ α)) other).2) :
    EndsAlike related ((undo >>= fun _ => (Action.refuse cause : Action σ α)) one)
      ((undo >>= fun _ => Action.refuse again) other) := by
  have ends := undone.keeps one other pair
  rw [bind_apply] at holds ⊢
  rw [bind_apply]
  generalize undo one = left at ends ⊢
  rcases ended : undo other with ⟨failure | ⟨⟩, after⟩ <;> rw [ended] at holds ends
  · cases ends holds with
    | error same pair => exact .error same pair
  · cases ends holds with
    | ok value pair => exact .error (.error resembles) pair

theorem undoOnError {action : Action σ α} {undo : Action σ Unit} (inStep : InStep related sound action)
    (undone : InStep related sound undo) : InStep related sound (action.undoOnError undo) where
  was_sound state holds := by
    have before := inStep.was_sound state
    rcases ended : action state with ⟨(cause | cause) | value, after⟩ <;> rw [ended] at before
    · rw [undoOnError_of_error ended] at holds
      exact before ((undone.bind fun _ => refuse cause).was_sound after holds)
    · simp only [Action.undoOnError, ended] at holds
      exact before holds
    · simp only [Action.undoOnError, ended] at holds
      exact before holds
  keeps one other pair holds := by
    have ends := inStep.keeps one other pair
    rcases ended : action other with ⟨(cause | cause) | value, after⟩ <;> rw [ended] at ends
    · rw [undoOnError_of_error ended] at holds ⊢
      have between := (undone.bind fun _ => refuse (α := α) cause).was_sound after holds
      generalize first : action one = left at ends
      cases ends between with
      | error same pair =>
          cases same with
          | error resembles =>
              rw [undoOnError_of_error first]
              exact undone.refuse_after resembles pair holds
    · simp only [Action.undoOnError, ended] at holds ⊢
      generalize action one = left at ends ⊢
      cases ends holds with
      | error same pair =>
          cases same with
          | fault cause => exact .error (.fault cause) pair
    · simp only [Action.undoOnError, ended] at holds ⊢
      generalize action one = left at ends ⊢
      cases ends holds with
      | ok value pair => exact .ok value pair

theorem forEach (items : List α) {each : α → Action σ Unit}
    (one : ∀ item, InStep related sound (each item)) :
    InStep related sound (Action.forEach items each) := by
  induction items with
  | nil => exact pure ()
  | cons item rest ih => exact (one item).bind fun _ => ih

end InStep

end Action

open RateTree.Action (InStep EndsAlike)

variable {δ α π : Type}

/-- A device's calls run in step: its registers are written, unless with the one that may ring a bell,
the limiter is reset, and commands on agreements are sent. -/
structure CallsInStep (δ : Type) [RegisterAccess δ] [BlockMemory δ] [AdminTransport δ]
    (related : δ → δ → Prop) (sound : δ → Prop) : Prop where
  write : ∀ offset value, value ≠ 1 → InStep related sound (writeRegister offset value)
  sendInit : InStep related sound AdminChannel.sendInit
  sendSla : ∀ command id service tokens rings,
    InStep related sound (AdminChannel.sendSla command id service tokens rings)

namespace Limiter

/-- Two limiters have the same tree and related devices. -/
structure Beside (related : δ → δ → Prop) (one other : Limiter δ) : Prop where
  tree_eq : one.tree = other.tree
  devices : related one.device other.device

variable {related : δ → δ → Prop} {sound : δ → Prop}

/-- Whether an action takes limiters with the same tree through the same. -/
abbrev StaysBeside (related : δ → δ → Prop) (sound : δ → Prop) (action : Action (Limiter δ) α) : Prop :=
  InStep (Beside related) (fun limiter => sound limiter.device) action

theorem carryOut_inStep {apply : π → Action δ Unit}
    (applied : ∀ planned, InStep related sound (apply planned)) (plan : Tree → Outcome π)
    (commit : Tree → π → Tree) (result : π → α) :
    StaysBeside related sound (carryOut plan apply commit result) where
  was_sound limiter holds := by
    simp only [carryOut] at holds
    split at holds
    · exact holds
    · next planned _ =>
      have before := (applied planned).was_sound limiter.device
      split at holds <;> next ended => rw [ended] at before; exact before holds
  keeps one other pair holds := by
    rcases one with ⟨tree, device⟩
    rcases other with ⟨same, beside⟩
    rcases pair with ⟨rfl, pair⟩
    cases accepted : plan tree with
    | error failure =>
        simp only [carryOut, accepted]
        exact .error (.refl failure) ⟨rfl, pair⟩
    | ok planned =>
        have ends := (applied planned).keeps device beside pair
        simp only [carryOut, accepted] at holds ⊢
        generalize apply planned device = left at ends ⊢
        rcases ended : apply planned beside with ⟨failure | ⟨⟩, after⟩ <;> rw [ended] at holds ends
        · cases ends holds with
          | error resembles pair => exact .error resembles ⟨rfl, pair⟩
        · cases ends holds with
          | ok value pair => exact .ok _ ⟨rfl, pair⟩

theorem onTree_inStep (change : Tree → Except Error (α × Tree)) :
    StaysBeside related sound (onTree change) where
  was_sound limiter holds := by
    simp only [onTree] at holds
    split at holds <;> exact holds
  keeps one other pair _ := by
    rcases one with ⟨tree, device⟩
    rcases other with ⟨same, beside⟩
    rcases pair with ⟨rfl, pair⟩
    simp only [onTree] at pair ⊢
    cases change tree with
    | error cause => exact .error (.refl _) ⟨rfl, pair⟩
    | ok made => exact .ok made.1 ⟨rfl, pair⟩

section Calls

variable [RegisterAccess δ] [BlockMemory δ] [AdminTransport δ] (calls : CallsInStep δ related sound)

include calls

theorem link_inStep (node : NodeId) (parent : Option NodeId) (rings : List Nat) :
    InStep related sound (LinkTable.link (σ := δ) node parent rings) := by
  have set (table : LinkTable) (index above : Nat) :
      InStep related sound (table.set (σ := δ) index (LinkTable.linked above)) :=
    calls.write _ _ (LinkTable.linked_ne_one above)
  simp only [LinkTable.link]
  split
  · exact .refuse _
  · exact .pure ()
  · exact .refuse _
  · exact (InStep.forEach _ fun _ => set _ _ _).bind fun _ => set _ _ _
  · exact set _ _ _

theorem unlink_inStep (node : NodeId) (rings : List Nat) :
    InStep related sound (LinkTable.unlink (σ := δ) node rings) := by
  have clear (table : LinkTable) (index : Nat) :
      InStep related sound (table.set (σ := δ) index LinkTable.unlinked) :=
    calls.write _ _ LinkTable.unlinked_ne_one
  simp only [LinkTable.unlink]
  split
  · exact (InStep.forEach _ fun _ => clear _ _).bind fun _ => clear _ _
  · exact clear _ _
  · exact .pure ()
  · exact .pure ()

theorem relink_inStep (leaf cluster : NodeId) :
    InStep related sound (LinkTable.relink (σ := δ) leaf cluster) :=
  calls.write _ _ (LinkTable.linked_ne_one _)

theorem createSla_inStep (request : Sla) :
    StaysBeside related sound (createSla (δ := δ) request) := by
  apply carryOut_inStep
  intro plan
  apply (link_inStep calls _ _ _).bind
  intro _
  exact (calls.sendSla _ _ _ _ _).undoOnError (unlink_inStep calls _ _)

theorem updateSla_inStep (request : Sla) :
    StaysBeside related sound (updateSla (δ := δ) request) := by
  apply carryOut_inStep
  intro plan
  have sent := calls.sendSla .update plan.id plan.sla.service plan.tokens plan.rings
  simp only [applyUpdate]
  split
  · split
    · exact sent
    · apply (relink_inStep calls _ _).bind
      intro _
      exact sent.undoOnError (relink_inStep calls _ _)
  · exact sent

theorem deleteSla_inStep (id : NodeId) : StaysBeside related sound (deleteSla (δ := δ) id) := by
  apply carryOut_inStep
  intro plan
  apply (calls.sendSla _ _ _ _ _).bind
  intro _
  exact unlink_inStep calls _ _

theorem deleteSlaIfAny_inStep (id : NodeId) :
    StaysBeside related sound (deleteSlaIfAny (δ := δ) id) := by
  apply InStep.get_bind
  · intro one other pair
    rw [pair.tree_eq]
  · intro limiter
    apply (InStep.check _).bind
    intro node
    split
    · exact deleteSla_inStep calls id
    · exact .pure ()

theorem deleteNode_inStep (id : NodeId) : StaysBeside related sound (deleteNode (δ := δ) id) := by
  apply InStep.get_bind
  · intro one other pair
    rw [pair.tree_eq]
  · intro limiter
    apply (InStep.check _).bind
    intro kind
    apply (InStep.forEach _ (deleteSla_inStep calls)).bind
    intro _
    apply (deleteSlaIfAny_inStep calls id).bind
    intro _
    exact onTree_inStep _

theorem tearDown_inStep : StaysBeside related sound (tearDown (δ := δ)) := by
  have prune (ids : List NodeId) : StaysBeside related sound
      (Action.forEach ids fun id => (deleteNode (δ := δ) id).passOver) :=
    .forEach _ fun id => (deleteNode_inStep calls id).passOver
  apply InStep.get_bind
  · intro one other pair
    rw [pair.tree_eq]
  intro limiter
  apply (prune _).bind
  intro _
  apply InStep.get_bind
  · intro one other pair
    rw [pair.tree_eq]
  intro pruned
  apply (prune _).bind
  intro _
  apply InStep.get_bind
  · intro one other pair
    rw [pair.tree_eq]
  intro bare
  exact .forEach _ fun entry => (deleteSlaIfAny_inStep calls entry.2).passOver

theorem plantService_inStep (service : Service) (root : NodeId) :
    StaysBeside related sound (plantService (δ := δ) service root) := by
  apply InStep.get_bind
  · intro one other pair
    rw [pair.tree_eq]
  intro limiter
  apply (onTree_inStep _).bind
  intro cluster
  apply (InStep.forEach _ fun _ => (onTree_inStep _).bind fun _ => .pure ()).bind
  intro _
  apply (createSla_inStep calls _).bind
  intro _
  exact (createSla_inStep calls _).bind fun _ => .pure ()

theorem bootstrap_inStep : StaysBeside related sound (bootstrap (δ := δ)) := by
  apply InStep.get_bind
  · intro one other pair
    rw [pair.tree_eq]
  · intro limiter
    exact .forEach _ fun entry => plantService_inStep calls entry.1 entry.2

theorem prepare_inStep (profile : Profile) (config : DeviceConfig) :
    InStep related sound (prepare (δ := δ) profile config) := by
  have clear (offset : Nat) : InStep related sound (writeRegister (σ := δ) offset 0) :=
    calls.write offset 0 (by decide)
  refine (InStep.check _).bind fun _ => (InStep.check _).bind fun _ => calls.sendInit.bind fun _ => ?_
  refine (InStep.lift _).bind fun tree => (clear _).bind fun _ => (clear _).bind fun _ => ?_
  exact .pure tree

/-- Bringing up a limiter on a device runs in step. -/
theorem start_inStep (profile : Profile) (config : DeviceConfig) :
    InStep related sound (start (δ := δ) profile config) where
  was_sound device holds := by
    have before := (prepare_inStep calls profile config).was_sound device
    simp only [start] at holds
    split at holds
    · next prepared =>
      rw [prepared] at before
      exact before holds
    · next tree ready prepared =>
      have built := ((bootstrap_inStep calls).undoOnError (tearDown_inStep calls)).was_sound ⟨tree, ready⟩
      rw [prepared] at before
      split at holds <;> next ended => rw [ended] at built; exact before (built holds)
  keeps one other pair holds := by
    have prepared := (prepare_inStep calls profile config).keeps one other pair
    have raised := (bootstrap_inStep calls).undoOnError (tearDown_inStep calls)
    simp only [start] at holds ⊢
    generalize prepare profile config one = left at prepared ⊢
    rcases ended : prepare profile config other with ⟨failure | tree, ready⟩ <;>
      rw [ended] at holds prepared
    · cases prepared holds with
      | error resembles pair => exact .error resembles pair
    · have built := raised.was_sound ⟨tree, ready⟩
      have built_alike := fun first pair => raised.keeps ⟨tree, first⟩ ⟨tree, ready⟩ ⟨rfl, pair⟩
      simp only at holds ⊢
      rcases finished : bootstrap.undoOnError tearDown ⟨tree, ready⟩ with ⟨failure | ⟨⟩, last⟩ <;>
        rw [finished] at holds built built_alike
      · cases prepared (built holds) with
        | ok tree pair =>
            have ends := built_alike _ pair holds
            simp only
            generalize (bootstrap.undoOnError tearDown : Action (Limiter δ) Unit) _ = before at ends ⊢
            cases ends with
            | error resembles pair => exact .error resembles pair.devices
      · cases prepared (built holds) with
        | ok tree pair =>
            have ends := built_alike _ pair holds
            simp only
            generalize (bootstrap.undoOnError tearDown : Action (Limiter δ) Unit) _ = before at ends ⊢
            cases ends with
            | ok value pair =>
                simp only [pair.tree_eq]
                exact .ok _ pair.devices

end Calls

end Limiter

end RateTree
