import Mathlib.Logic.Relation
import RateTree.Bench
import RateTree.Limiter
import RateTree.Proofs.Allocation
import RateTree.Proofs.Checks

/-!
# Runs

A run brings a limiter up on a device and then performs operations, in any order and with any
arguments, while the device may change between them. Every operation, and the bringing up itself, is
made of a few calls that change the tree. What holds when the limiter is prepared and is kept by
every call therefore holds at all times of every run.
-/

namespace RateTree

namespace Limiter

variable {δ α β : Type} [RegisterAccess δ] [BlockMemory δ] [AdminTransport δ]

/-- What can be asked of a limiter that is up. -/
inductive Operation where
  | createNode (kind : NodeKind) (service : Service)
  | deleteNode (id : NodeId)
  | createSla (request : Sla)
  | updateSla (request : Sla)
  | deleteSla (id : NodeId)
  | exit
deriving DecidableEq

namespace Operation

/-- Performs an operation; the result is the identifier that it gives out, if it gives out one. -/
def perform : Operation → Action (Limiter δ) (Option NodeId)
  | .createNode kind service => do return some (← Limiter.createNode kind service)
  | .deleteNode id => do
    Limiter.deleteNode id
    return none
  | .createSla request => do return some (← Limiter.createSla request)
  | .updateSla request => do
    Limiter.updateSla request
    return none
  | .deleteSla id => do
    Limiter.deleteSla id
    return none
  | .exit => do
    tearDown
    return none

/-- Performs an operation; its result is left out. -/
def run (operation : Operation) : Action (Limiter δ) Unit := do
  let _ ← operation.perform

/-! With its result left out, an operation is the call of the limiter that it stands for. -/

theorem run_createNode (kind : NodeKind) (service : Service) :
    (createNode kind service).run (δ := δ) = Limiter.createNode kind service >>= fun _ => pure () :=
  Action.bind_pure_bind

theorem run_deleteNode (id : NodeId) : (deleteNode id).run (δ := δ) = Limiter.deleteNode id :=
  Action.bind_pure_bind.trans Action.bind_pure_unit

theorem run_createSla (request : Sla) :
    (createSla request).run (δ := δ) = Limiter.createSla request >>= fun _ => pure () :=
  Action.bind_pure_bind

theorem run_updateSla (request : Sla) :
    (updateSla request).run (δ := δ) = Limiter.updateSla request :=
  Action.bind_pure_bind.trans Action.bind_pure_unit

theorem run_deleteSla (id : NodeId) : (deleteSla id).run (δ := δ) = Limiter.deleteSla id :=
  Action.bind_pure_bind.trans Action.bind_pure_unit

theorem run_exit : exit.run (δ := δ) = tearDown :=
  Action.bind_pure_bind.trans Action.bind_pure_unit

end Operation

/-- The limiters of the runs on a device of one of the initial states, which makes moves of its own
between the operations. An operation leaves its limiter to the run whether it succeeds or not. -/
inductive Reachable (profile : Profile) (config : DeviceConfig) (initial : δ → Prop)
    (moves : δ → δ → Prop) : Limiter δ → Prop where
  | started {device after : δ} {tree : Tree} (clean : initial device)
      (up : start profile config device = (.ok tree, after)) :
      Reachable profile config initial moves ⟨tree, after⟩
  | performed {limiter : Limiter δ} (operation : Operation)
      (before : Reachable profile config initial moves limiter) :
      Reachable profile config initial moves (operation.run limiter).2
  | moved {limiter : Limiter δ} {device : δ}
      (before : Reachable profile config initial moves limiter)
      (move : moves limiter.device device) :
      Reachable profile config initial moves ⟨limiter.tree, device⟩

/-- A run stays one where more initial states and more moves are admitted. -/
theorem Reachable.mono {profile : Profile} {config : DeviceConfig} {initial wider : δ → Prop}
    {moves freer : δ → δ → Prop} {limiter : Limiter δ}
    (reached : Reachable profile config initial moves limiter)
    (widens : ∀ device, initial device → wider device)
    (frees : ∀ before after, moves before after → freer before after) :
    Reachable profile config wider freer limiter := by
  induction reached with
  | started clean up => exact .started (widens _ clean) up
  | performed operation _ ih => exact .performed operation ih
  | moved _ move ih => exact .moved ih (frees _ _ move)

/-- The calls that operations are made of. -/
inductive Call where
  | createNode (kind : NodeKind) (service : Service)
  | removeNode (id : NodeId) (kind : NodeKind)
  | createSla (request : Sla)
  | updateSla (request : Sla)
  | deleteSla (id : NodeId)
deriving DecidableEq

namespace Call

/-- Whether operations make a call: nodes are removed below the roots only. -/
def Admissible : Call → Prop
  | .removeNode id kind => id.kind? = some kind ∧ kind ≠ .root
  | .createNode _ _ | .createSla _ | .updateSla _ | .deleteSla _ => True

/-- The limiter that a call leaves behind. -/
def leaves : Call → Limiter δ → Limiter δ
  | .createNode kind service, limiter => (Limiter.createNode kind service limiter).2
  | .removeNode id kind, limiter => (Limiter.removeNode id kind limiter).2
  | .createSla request, limiter => (Limiter.createSla request limiter).2
  | .updateSla request, limiter => (Limiter.updateSla request limiter).2
  | .deleteSla id, limiter => (Limiter.deleteSla id limiter).2

end Call

/-- One limiter leads to another by an admissible call that satisfies a condition. -/
def Step (allowed : Tree → Call → Prop) (limiter after : Limiter δ) : Prop :=
  ∃ call : Call, call.Admissible ∧ allowed limiter.tree call ∧ after = call.leaves limiter

/-- One limiter leads to another by calls, each of which satisfies a condition when it is made. -/
def Steps (allowed : Tree → Call → Prop) : Limiter δ → Limiter δ → Prop :=
  Relation.ReflTransGen (Step allowed)

/-- Whether an action does nothing to a limiter but by calls of some kind. -/
def MadeOf (calls : Call → Prop) (action : Action (Limiter δ) α) : Prop :=
  ∀ limiter, Steps (fun _ call => calls call) limiter (action limiter).2

theorem Steps.mono {allowed wider : Tree → Call → Prop} {limiter after : Limiter δ}
    (permitted : ∀ tree call, allowed tree call → wider tree call)
    (steps : Steps allowed limiter after) : Steps wider limiter after := by
  refine Relation.ReflTransGen.mono ?_ _ _ steps
  rintro limiter after ⟨call, admissible, condition, rfl⟩
  exact ⟨call, admissible, permitted _ _ condition, rfl⟩

/-- Whether a call leaves the rates of every agreement as they are; only an update changes them. -/
def Call.KeepsRates : Call → Prop
  | .updateSla _ => False
  | .createNode _ _ | .removeNode _ _ | .createSla _ | .deleteSla _ => True

namespace MadeOf

variable {calls : Call → Prop}

theorem mono {wider : Call → Prop} {action : Action (Limiter δ) α} (made : MadeOf calls action)
    (permitted : ∀ call, calls call → wider call) : MadeOf wider action :=
  fun limiter => (made limiter).mono fun _ => permitted

theorem of_call {action : Action (Limiter δ) α} (call : Call) (admissible : call.Admissible)
    (allowed : calls call) (leaves : ∀ limiter, call.leaves limiter = (action limiter).2) :
    MadeOf calls action := by
  intro limiter
  rw [← leaves]
  exact Relation.ReflTransGen.single ⟨call, admissible, allowed, rfl⟩

theorem of_still {action : Action (Limiter δ) α} (still : ∀ limiter, (action limiter).2 = limiter) :
    MadeOf calls action := by
  intro limiter
  rw [still]
  exact Relation.ReflTransGen.refl

theorem bind {action : Action (Limiter δ) α} {next : α → Action (Limiter δ) β}
    (first : MadeOf calls action)
    (second : ∀ value limiter, (action limiter).1 = .ok value → MadeOf calls (next value)) :
    MadeOf calls (action >>= next) := by
  intro limiter
  have reached := first limiter
  rw [Action.bind_apply]
  cases result : action limiter with
  | mk outcome after =>
      rw [result] at reached
      cases outcome with
      | error failure => exact reached
      | ok value => exact reached.trans (second value limiter (by rw [result]) after)

theorem result {action : Action (Limiter δ) α} {change : α → β} (made : MadeOf calls action) :
    MadeOf calls (action >>= fun value => pure (change value)) :=
  made.bind fun _ _ _ => of_still fun _ => rfl

theorem forEach {items : List α} {action : α → Action (Limiter δ) Unit}
    (each : ∀ item ∈ items, MadeOf calls (action item)) :
    MadeOf calls (Action.forEach items action) := by
  induction items with
  | nil => exact of_still fun _ => rfl
  | cons item rest ih =>
      apply (each item (by simp)).bind
      intro _ _ _
      exact ih fun other mem => each other (by simp [mem])

theorem passOver {action : Action (Limiter δ) Unit} (made : MadeOf calls action) :
    MadeOf calls action.passOver := by
  intro limiter
  have reached := made limiter
  simp only [Action.passOver]
  split
  · next after result => rwa [result] at reached
  · exact reached

theorem undoOnError {action : Action (Limiter δ) α} {undo : Action (Limiter δ) Unit}
    (made : MadeOf calls action) (undone : MadeOf calls undo) :
    MadeOf calls (action.undoOnError undo) := by
  intro limiter
  have reached := made limiter
  simp only [Action.undoOnError]
  split
  · next cause after result =>
    rw [result] at reached
    have restored := reached.trans (undone after)
    split <;> next undoing => rwa [undoing] at restored
  · exact reached

theorem createNode (kind : NodeKind) (service : Service) :
    MadeOf Call.KeepsRates (Limiter.createNode (δ := δ) kind service) :=
  of_call (.createNode kind service) trivial trivial fun _ => rfl

theorem createSla (request : Sla) :
    MadeOf Call.KeepsRates (Limiter.createSla (δ := δ) request) :=
  of_call (.createSla request) trivial trivial fun _ => rfl

theorem deleteSla (id : NodeId) (allowed : calls (.deleteSla id)) :
    MadeOf calls (Limiter.deleteSla (δ := δ) id) :=
  of_call (.deleteSla id) trivial allowed fun _ => rfl

theorem deleteSlaIfAny (id : NodeId) (allowed : calls (.deleteSla id)) :
    MadeOf calls (Limiter.deleteSlaIfAny (δ := δ) id) := by
  apply (of_still fun _ => rfl).bind
  intro limiter _ _
  apply (of_still fun _ => rfl).bind
  intro node _ _
  split
  · exact deleteSla id allowed
  · exact of_still fun _ => rfl

/-- Removing a node deletes the agreements of the leaves below it and its own, and then the node. -/
theorem steps_deleteNode (limiter : Limiter δ) (id : NodeId)
    (leaves : ∀ kind, id.kind? = some kind → ∀ leaf ∈ limiter.tree.leavesBelow id kind,
      calls (.deleteSla leaf))
    (own : calls (.deleteSla id)) (removed : ∀ kind, calls (.removeNode id kind)) :
    Steps (fun _ call => calls call) limiter (Limiter.deleteNode id limiter).2 := by
  rw [Limiter.deleteNode, Action.bind_apply, Action.get_apply]
  refine ((of_still fun _ => rfl).bind ?_ : MadeOf calls _) limiter
  intro kind before removable
  rw [Action.liftError_apply, Outcome.liftError_eq_ok, Tree.checkRemovable_eq_ok] at removable
  rcases removable with ⟨known, inner, -⟩
  apply (forEach fun leaf mem => deleteSla leaf (leaves kind known leaf mem)).bind
  intro _ _ _
  apply (deleteSlaIfAny id own).bind
  intro _ _ _
  exact of_call (.removeNode id kind) ⟨known, inner⟩ (removed kind) fun _ => rfl

theorem deleteNode (id : NodeId) : MadeOf Call.KeepsRates (Limiter.deleteNode (δ := δ) id) :=
  fun limiter => steps_deleteNode limiter id (fun _ _ _ _ => trivial) trivial fun _ => trivial

theorem tearDown : MadeOf Call.KeepsRates (Limiter.tearDown (δ := δ)) := by
  apply (of_still fun _ => rfl).bind
  intro limiter _ _
  apply (forEach fun id _ => (deleteNode id).passOver).bind
  intro _ _ _
  apply (of_still fun _ => rfl).bind
  intro pruned _ _
  apply (forEach fun id _ => (deleteNode id).passOver).bind
  intro _ _ _
  apply (of_still fun _ => rfl).bind
  intro bare _ _
  exact forEach fun entry _ => (deleteSlaIfAny entry.2 trivial).passOver

theorem plantService (service : Service) (root : NodeId) :
    MadeOf Call.KeepsRates (Limiter.plantService (δ := δ) service root) := by
  apply (of_still fun _ => rfl).bind
  intro limiter _ _
  apply (createNode .cluster service).bind
  intro cluster _ _
  apply (forEach fun _ _ =>
    (createNode .leaf service).bind fun _ _ _ => of_still fun _ => rfl).bind
  intro _ _ _
  apply (createSla _).bind
  intro _ _ _
  exact (createSla _).bind fun _ _ _ => of_still fun _ => rfl

theorem bootstrap : MadeOf Call.KeepsRates (Limiter.bootstrap (δ := δ)) := by
  apply (of_still fun _ => rfl).bind
  intro limiter _ _
  exact forEach fun entry _ => plantService entry.1 entry.2

/-- An operation updates no agreement unless it is that update. -/
theorem run (operation : Operation) :
    MadeOf (fun call => ∀ request, call = .updateSla request → operation = .updateSla request)
      (operation.run (δ := δ)) := by
  have keeping : ∀ call : Call, call.KeepsRates →
      ∀ request, call = .updateSla request → operation = .updateSla request := by
    rintro _ keeps request rfl
    exact keeps.elim
  refine bind ?_ fun _ _ _ => of_still fun _ => rfl
  cases operation with
  | createNode kind service => exact (createNode kind service).result.mono keeping
  | deleteNode id => exact (deleteNode id).result.mono keeping
  | createSla request => exact (createSla request).result.mono keeping
  | updateSla request =>
      refine result (of_call (.updateSla request) trivial ?_ fun _ => rfl)
      rintro _ ⟨⟩
      rfl
  | deleteSla id => exact result (deleteSla id (keeping _ trivial))
  | exit => exact tearDown.result.mono keeping

end MadeOf

/-- Whether an action does nothing to a limiter but by calls. -/
def Stepwise (action : Action (Limiter δ) α) : Prop :=
  ∀ limiter, Steps (fun _ _ => True) limiter (action limiter).2

theorem MadeOf.stepwise {calls : Call → Prop} {action : Action (Limiter δ) α}
    (made : MadeOf calls action) : Stepwise action :=
  made.mono fun _ _ => trivial

namespace Stepwise

theorem undoOnError {action : Action (Limiter δ) α} {undo : Action (Limiter δ) Unit}
    (stepwise : Stepwise action) (undone : Stepwise undo) : Stepwise (action.undoOnError undo) :=
  MadeOf.undoOnError stepwise undone

theorem tearDown : Stepwise (Limiter.tearDown (δ := δ)) := MadeOf.tearDown.stepwise

theorem bootstrap : Stepwise (Limiter.bootstrap (δ := δ)) := MadeOf.bootstrap.stepwise

theorem run (operation : Operation) : Stepwise (operation.run (δ := δ)) :=
  (MadeOf.run operation).stepwise

end Stepwise

/-- A limiter that came up was prepared, and then led to the one it is by calls. -/
theorem start_eq_ok {profile : Profile} {config : DeviceConfig} {device after : δ} {tree : Tree}
    (up : start profile config device = (.ok tree, after)) :
    ∃ bare ready, prepare profile config device = (.ok bare, ready) ∧
      Steps (fun _ _ => True) ⟨bare, ready⟩ (⟨tree, after⟩ : Limiter δ) := by
  simp only [start] at up
  split at up
  · cases up
  · next bare ready prepared =>
    have reached := Stepwise.bootstrap.undoOnError Stepwise.tearDown ⟨bare, ready⟩
    split at up
    · next limiter finished =>
      rw [finished] at reached
      cases up
      exact ⟨bare, ready, prepared, reached⟩
    · cases up

theorem Steps.keep {allowed : Tree → Call → Prop} {holds : Limiter δ → Prop}
    (called : ∀ limiter (call : Call), call.Admissible → allowed limiter.tree call →
      holds limiter → holds (call.leaves limiter))
    {limiter after : Limiter δ} (steps : Steps allowed limiter after) (start : holds limiter) :
    holds after := by
  induction steps with
  | refl => exact start
  | tail _ step ih =>
      rcases step with ⟨call, admissible, permitted, rfl⟩
      exact called _ call admissible permitted ih

/-- The limiters that a run goes through, the half-built ones on the way up and those in the middle of
an operation included. -/
inductive Underway (profile : Profile) (config : DeviceConfig) (initial : δ → Prop)
    (moves : δ → δ → Prop) : Limiter δ → Prop where
  | prepared {device ready : δ} {bare : Tree} (clean : initial device)
      (made : prepare profile config device = (.ok bare, ready)) :
      Underway profile config initial moves ⟨bare, ready⟩
  | called {limiter : Limiter δ} (call : Call) (admissible : call.Admissible)
      (before : Underway profile config initial moves limiter) :
      Underway profile config initial moves (call.leaves limiter)
  | moved {limiter : Limiter δ} {device : δ}
      (before : Underway profile config initial moves limiter)
      (move : moves limiter.device device) :
      Underway profile config initial moves ⟨limiter.tree, device⟩

section Underway

variable {profile : Profile} {config : DeviceConfig} {initial : δ → Prop} {moves : δ → δ → Prop}
  {limiter after : Limiter δ}

theorem Underway.steps {allowed : Tree → Call → Prop}
    (before : Underway profile config initial moves limiter) (steps : Steps allowed limiter after) :
    Underway profile config initial moves after :=
  steps.keep (fun _ call admissible _ => .called call admissible) before

/-- Wherever the bringing up stops, it leaves a limiter that is under way. -/
theorem Underway.bootstrap {device ready : δ} {bare : Tree} (clean : initial device)
    (made : prepare profile config device = (.ok bare, ready)) :
    Underway profile config initial moves (Limiter.bootstrap ⟨bare, ready⟩).2 :=
  (Underway.prepared clean made).steps (Stepwise.bootstrap _)

theorem Reachable.underway (reached : Reachable profile config initial moves limiter) :
    Underway profile config initial moves limiter := by
  induction reached with
  | started clean up =>
      rcases start_eq_ok up with ⟨bare, ready, made, steps⟩
      exact (Underway.prepared clean made).steps steps
  | performed operation _ ih => exact ih.steps (Stepwise.run operation _)
  | moved _ move ih => exact .moved ih move

/-- What holds of a prepared limiter and is kept by every call and every move of the device holds at all
times. -/
theorem Underway.keep (holds : Limiter δ → Prop)
    (prepared : ∀ device bare ready, initial device →
      prepare profile config device = (.ok bare, ready) → holds ⟨bare, ready⟩)
    (called : ∀ limiter (call : Call), call.Admissible → holds limiter →
      holds (call.leaves limiter))
    (moved : ∀ limiter device, moves limiter.device device → holds limiter →
      holds ⟨limiter.tree, device⟩)
    (underway : Underway profile config initial moves limiter) : holds limiter := by
  induction underway with
  | prepared clean made => exact prepared _ _ _ clean made
  | called call admissible _ ih => exact called _ call admissible ih
  | moved _ move ih => exact moved _ _ move ih

end Underway

/-! ## A small run -/

/-- Two services and one function. -/
def smallConfig : DeviceConfig :=
  { DeviceConfig.gen4 with services := [.sym, .dc], totalVfs := 1, enabledVfs := 1 }

/-- A request for the first leaf, under the first cluster and for the first function. -/
def firstLeaf : Sla := .leaf (.ofSlot .leaf 0) (.ofSlot .cluster 0) .sym ⟨0, 1⟩ 1000 2000

/-- The limiter after the first leaf was asked for. -/
def withFirstLeaf (limiter : Limiter δ) : Limiter δ :=
  ((Operation.createSla firstLeaf).run limiter).2

theorem withFirstLeaf_eq (limiter : Limiter δ) :
    withFirstLeaf limiter = (createSla firstLeaf limiter).2 := by
  rw [withFirstLeaf, Operation.run_createSla, Action.bind_pure_snd]

/-- Whether a limiter with some constants comes up on a fresh bench and then passes a test. -/
def comesUpWith (profile : Profile) (config : DeviceConfig) (test : Limiter Bench → Bool) : Bool :=
  match start profile config Bench.fresh with
  | (.ok tree, bench) => test ⟨tree, bench⟩
  | (.error _, _) => false

theorem exists_start_with {profile : Profile} {config : DeviceConfig} {test : Limiter Bench → Bool}
    (passed : comesUpWith profile config test = true) :
    ∃ tree bench, start profile config Bench.fresh = (.ok tree, bench) ∧
      test ⟨tree, bench⟩ = true := by
  rw [comesUpWith] at passed
  rcases up : start profile config Bench.fresh with ⟨failure | tree, bench⟩
  · rw [up] at passed
    contradiction
  · rw [up] at passed
    exact ⟨tree, bench, rfl, passed⟩

/-- Whether a limiter comes up on a fresh bench and then passes a test. -/
def comesUp (test : Limiter Bench → Bool) : Bool :=
  match start Profile.gen4 smallConfig Bench.fresh with
  | (.ok tree, bench) => test ⟨tree, bench⟩
  | (.error _, _) => false

theorem exists_start {test : Limiter Bench → Bool} (passed : comesUp test = true) :
    ∃ tree bench, start Profile.gen4 smallConfig Bench.fresh = (.ok tree, bench) ∧
      test ⟨tree, bench⟩ = true := by
  have passed_with : comesUpWith Profile.gen4 smallConfig test = true := passed
  exact exists_start_with passed_with

/-- There are runs with a configured leaf. -/
theorem exists_reachable {initial : Bench → Prop} {moves : Bench → Bench → Prop}
    (clean : initial Bench.fresh) :
    ∃ limiter : Limiter Bench, Reachable Profile.gen4 smallConfig initial moves limiter ∧
      limiter.device.pool.nextAddress < 2 ^ 64 ∧
      ∃ leaf, limiter.tree.nodes.find? firstLeaf.node = some leaf ∧ leaf.configured = true := by
  have passed : comesUp (fun limiter =>
      let after := withFirstLeaf limiter
      decide (after.device.pool.nextAddress < 2 ^ 64) &&
        (after.tree.nodes.find? firstLeaf.node).any Node.configured) = true := by
    decide +kernel
  rcases exists_start passed with ⟨tree, bench, up, result⟩
  simp only [Bool.and_eq_true, decide_eq_true_eq, Option.any_eq_true] at result
  rcases result with ⟨room, leaf, found, bound⟩
  exact ⟨_, .performed (.createSla firstLeaf) (.started clean up), room, leaf, found, bound⟩

end Limiter

end RateTree
