import RateTree.Proofs.Runs

/-!
# Traces

A device can be watched: a traced device passes on everything that is asked of it, and records each
register that is written, each block of memory that is handed out and each request that is sent, and
besides where memory fell short. Watching changes nothing: an operation on a traced device, once the
trace is dropped, is the operation on the device itself. So the trace of an operation says what the
operation does to the device.
-/

namespace RateTree

namespace Action

variable {σ τ α β : Type} {view : σ → τ}

/-- An action, seen through a view of its state, is another action. -/
def SeenAs (view : σ → τ) (action : Action σ α) (image : Action τ α) : Prop :=
  ∀ state, image (view state) = ((action state).1, view (action state).2)

namespace SeenAs

theorem pure (value : α) : SeenAs view (Pure.pure value) (Pure.pure value) := fun _ => rfl

theorem refuse (cause : Error) : SeenAs view (Action.refuse cause : Action σ α) (Action.refuse cause) :=
  fun _ => rfl

theorem check (checked : Except Error α) :
    SeenAs view (liftM checked : Action σ α) (liftM checked) := fun _ => rfl

theorem bind {action : Action σ α} {image : Action τ α} {next : α → Action σ β}
    {follows : α → Action τ β} (first : SeenAs view action image)
    (second : ∀ value, SeenAs view (next value) (follows value)) :
    SeenAs view (action >>= next) (image >>= follows) := by
  intro state
  rw [bind_apply, bind_apply, first state]
  rcases action state with ⟨failure | value, after⟩
  · rfl
  · exact second value after

/-- What looks at the whole state first may go by what the view shows of it. -/
theorem get_bind {next : σ → Action σ α} {follows : τ → Action τ α}
    (rest : ∀ state, SeenAs view (next state) (follows (view state))) :
    SeenAs view (Action.get >>= next) (Action.get >>= follows) :=
  fun state => rest state state

theorem mapError {action : Action σ α} {image : Action τ α} (change : Error → Error)
    (first : SeenAs view action image) :
    SeenAs view (action.mapError change) (image.mapError change) := by
  intro state
  simp only [Action.mapError, first state]
  rcases action state with ⟨(cause | cause) | value, after⟩ <;> rfl

theorem passOver {action : Action σ Unit} {image : Action τ Unit} (first : SeenAs view action image) :
    SeenAs view action.passOver image.passOver := by
  intro state
  simp only [Action.passOver, first state]
  rcases action state with ⟨(cause | cause) | value, after⟩ <;> rfl

theorem undoOnError {action : Action σ α} {image : Action τ α} {undo : Action σ Unit}
    {undone : Action τ Unit} (first : SeenAs view action image) (back : SeenAs view undo undone) :
    SeenAs view (action.undoOnError undo) (image.undoOnError undone) := by
  intro state
  simp only [Action.undoOnError, first state]
  rcases action state with ⟨(cause | cause) | value, after⟩
  · simp only [back after]
    rcases undo after with ⟨(second | second) | ⟨⟩, restored⟩ <;> rfl
  · rfl
  · rfl

theorem forEach (items : List α) {each : α → Action σ Unit} {image : α → Action τ Unit}
    (one : ∀ item, SeenAs view (each item) (image item)) :
    SeenAs view (Action.forEach items each) (Action.forEach items image) := by
  induction items with
  | nil => exact pure ()
  | cons item rest ih => exact (one item).bind fun _ => ih

end SeenAs

end Action

open RateTree.Action (SeenAs)

/-! ## Relays -/

/-- Whether a device passes on what is asked of its memory and its transport to another one, which a view
shows. -/
structure Relays {σ δ : Type} [BlockMemory σ] [AdminTransport σ] [BlockMemory δ] [AdminTransport δ]
    (view : σ → δ) : Prop where
  allocate : ∀ use size, SeenAs view (BlockMemory.allocate use size) (BlockMemory.allocate use size)
  fill : ∀ block bytes, SeenAs view (BlockMemory.fill block bytes) (BlockMemory.fill block bytes)
  release : ∀ block state, view (BlockMemory.release block state) =
    BlockMemory.release block (view state)
  exchange : ∀ request,
    SeenAs view (AdminTransport.exchange request) (AdminTransport.exchange request)

namespace Relays

variable {σ δ α : Type} [BlockMemory σ] [AdminTransport σ] [BlockMemory δ] [AdminTransport δ]
  {view : σ → δ}

theorem withBlock (relays : Relays view) (use : BlockUse) (size : Nat)
    {action : Block → Action σ α} {image : Block → Action δ α}
    (inner : ∀ block, SeenAs view (action block) (image block)) :
    SeenAs view (RateTree.withBlock use size action) (RateTree.withBlock use size image) := by
  intro state
  simp only [RateTree.withBlock, relays.allocate use size state]
  rcases BlockMemory.allocate use size state with ⟨failure | block, after⟩
  · rfl
  · simp only [inner block after, relays.release]

theorem roundTrip (relays : Relays view) (request : AdminRequest) :
    SeenAs view (AdminChannel.roundTrip request) (AdminChannel.roundTrip request) := by
  apply ((relays.exchange request).mapError _).bind
  intro response
  split
  · exact .refuse _
  · split
    · exact .refuse _
    · exact .pure ()

theorem sendSla (relays : Relays view) (command : AdminCommand) (node : NodeId) (service : Service)
    (tokens : Tokens) (rings : List Nat) :
    SeenAs view (AdminChannel.sendSla command node service tokens rings)
      (AdminChannel.sendSla command node service tokens rings) := by
  simp only [AdminChannel.sendSla]
  split
  · exact fun _ => rfl
  · split
    · exact .refuse _
    · next kind known =>
      apply (SeenAs.check _).bind
      intro ids
      apply relays.withBlock
      intro block
      split
      · exact (relays.fill _ _).bind fun _ => relays.roundTrip _
      · exact relays.roundTrip _

end Relays

/-! ## Traced devices -/

/-- What a limiter does to its device, and where the device has let it down. -/
inductive Effect where
  | write (offset : Nat) (value : UInt32)
  | allocation (use : BlockUse) (size : Nat)
  | request (request : AdminRequest)
  /-- A block of memory was not handed out, or does not take the bytes that it was wanted for. -/
  | shortage
deriving DecidableEq

/-- What there is to record when a block of memory was asked for. -/
def Effect.ofAllocation (use : BlockUse) (size : Nat) : Outcome Block → List Effect
  | .ok _ => [.allocation use size]
  | .error _ => [.shortage]

/-- What there is to record when bytes were to be written into a block. -/
def Effect.ofFill : Outcome Unit → List Effect
  | .ok () => []
  | .error _ => [.shortage]

/-- A device, and what has been done to it. -/
structure Traced (δ : Type) where
  device : δ
  trace : List Effect

namespace Traced

variable {δ α : Type}

/-- Passes an action on to the device and records its effects. -/
def observe (effects : Outcome α → List Effect) (action : Action δ α) : Action (Traced δ) α :=
  fun state =>
    let (outcome, after) := action state.device
    (outcome, ⟨after, state.trace ++ effects outcome⟩)

instance [RegisterAccess δ] : RegisterAccess (Traced δ) where
  readRegister offset := observe (fun _ => []) (readRegister offset)
  writeRegister offset value := observe (fun _ => [.write offset value]) (writeRegister offset value)

instance [BlockMemory δ] : BlockMemory (Traced δ) where
  allocate use size := observe (Effect.ofAllocation use size) (BlockMemory.allocate use size)
  fill block bytes := observe Effect.ofFill (BlockMemory.fill block bytes)
  contents block state := BlockMemory.contents block state.device
  release block state := { state with device := BlockMemory.release block state.device }

instance [AdminTransport δ] : AdminTransport (Traced δ) where
  exchange request := observe (fun _ => [.request request]) (AdminTransport.exchange request)

theorem observe_seen (effects : Outcome α → List Effect) (action : Action δ α) :
    SeenAs device (observe effects action) action := fun _ => rfl

theorem relays [BlockMemory δ] [AdminTransport δ] : Relays (device (δ := δ)) where
  allocate _ _ := observe_seen _ _
  fill _ _ := observe_seen _ _
  release _ _ := rfl
  exchange _ := observe_seen _ _

variable [RegisterAccess δ]

theorem set_seen (table : LinkTable) (index : Nat) (value : UInt32) :
    SeenAs device (table.set (σ := Traced δ) index value) (table.set index value) :=
  observe_seen _ _

theorem link_seen (node : NodeId) (parent : Option NodeId) (rings : List Nat) :
    SeenAs device (LinkTable.link (σ := Traced δ) node parent rings)
      (LinkTable.link node parent rings) := by
  simp only [LinkTable.link]
  split
  · exact .refuse _
  · exact .pure ()
  · exact .refuse _
  · exact (SeenAs.forEach _ fun _ => set_seen _ _ _).bind fun _ => set_seen _ _ _
  · exact set_seen _ _ _

theorem unlink_seen (node : NodeId) (rings : List Nat) :
    SeenAs device (LinkTable.unlink (σ := Traced δ) node rings) (LinkTable.unlink node rings) := by
  simp only [LinkTable.unlink]
  split
  · exact (SeenAs.forEach _ fun _ => set_seen _ _ _).bind fun _ => set_seen _ _ _
  · exact set_seen _ _ _
  · exact .pure ()
  · exact .pure ()

end Traced

namespace Limiter

open Traced

variable {δ α π : Type}

/-- A limiter whose device is watched from now on. -/
def traced (limiter : Limiter δ) : Limiter (Traced δ) := ⟨limiter.tree, ⟨limiter.device, []⟩⟩

/-- A limiter with what was recorded of its device dropped. -/
def untraced (limiter : Limiter (Traced δ)) : Limiter δ := ⟨limiter.tree, limiter.device.device⟩

theorem carryOut_seen {apply : π → Action (Traced δ) Unit} {image : π → Action δ Unit}
    (applied : ∀ planned, SeenAs Traced.device (apply planned) (image planned))
    (plan : Tree → Outcome π) (commit : Tree → π → Tree) (result : π → α) :
    SeenAs untraced (carryOut plan apply commit result) (carryOut plan image commit result) := by
  intro limiter
  simp only [carryOut, untraced]
  cases plan limiter.tree with
  | error failure => rfl
  | ok planned =>
      simp only [applied planned limiter.device]
      rcases apply planned limiter.device with ⟨failure | ⟨⟩, after⟩ <;> rfl

theorem onTree_seen (change : Tree → Except Error (α × Tree)) :
    SeenAs untraced (onTree (δ := Traced δ) change) (onTree change) := by
  intro limiter
  simp only [onTree, untraced]
  cases change limiter.tree <;> rfl

variable [RegisterAccess δ] [BlockMemory δ] [AdminTransport δ]

theorem applyCreate_seen (plan : Tree.CreatePlan) :
    SeenAs Traced.device (applyCreate (δ := Traced δ) plan) (applyCreate plan) :=
  (link_seen _ _ _).bind fun _ => (relays.sendSla _ _ _ _ _).undoOnError (unlink_seen _ _)

theorem applyUpdate_seen (plan : Tree.UpdatePlan) :
    SeenAs Traced.device (applyUpdate (δ := Traced δ) plan) (applyUpdate plan) := by
  have sent := (relays (δ := δ)).sendSla .update plan.id plan.sla.service plan.tokens plan.rings
  simp only [applyUpdate]
  split
  · split
    · exact sent
    · exact (set_seen _ _ _).bind fun _ => sent.undoOnError (set_seen _ _ _)
  · exact sent

theorem applyDelete_seen (plan : Tree.DeletePlan) :
    SeenAs Traced.device (applyDelete (δ := Traced δ) plan) (applyDelete plan) :=
  (relays.sendSla _ _ _ _ _).bind fun _ => unlink_seen _ _

theorem createSla_seen (request : Sla) :
    SeenAs untraced (createSla (δ := Traced δ) request) (createSla request) :=
  carryOut_seen applyCreate_seen _ _ _

theorem updateSla_seen (request : Sla) :
    SeenAs untraced (updateSla (δ := Traced δ) request) (updateSla request) :=
  carryOut_seen applyUpdate_seen _ _ _

theorem deleteSla_seen (id : NodeId) :
    SeenAs untraced (deleteSla (δ := Traced δ) id) (deleteSla id) :=
  carryOut_seen applyDelete_seen _ _ _

theorem deleteSlaIfAny_seen (id : NodeId) :
    SeenAs untraced (deleteSlaIfAny (δ := Traced δ) id) (deleteSlaIfAny id) := by
  apply SeenAs.get_bind
  intro limiter
  apply (SeenAs.check _).bind
  intro node
  split
  · exact deleteSla_seen id
  · exact .pure ()

theorem deleteNode_seen (id : NodeId) :
    SeenAs untraced (deleteNode (δ := Traced δ) id) (deleteNode id) := by
  apply SeenAs.get_bind
  intro limiter
  apply (SeenAs.check _).bind
  intro kind
  apply (SeenAs.forEach _ deleteSla_seen).bind
  intro _
  apply (deleteSlaIfAny_seen id).bind
  intro _
  exact onTree_seen _

theorem tearDown_seen : SeenAs untraced (tearDown (δ := Traced δ)) tearDown := by
  apply SeenAs.get_bind
  intro limiter
  apply (SeenAs.forEach _ fun id => (deleteNode_seen id).passOver).bind
  intro _
  apply SeenAs.get_bind
  intro pruned
  apply (SeenAs.forEach _ fun id => (deleteNode_seen id).passOver).bind
  intro _
  apply SeenAs.get_bind
  intro bare
  exact .forEach _ fun entry => (deleteSlaIfAny_seen entry.2).passOver

/-- Watching an operation changes nothing. -/
theorem run_seen (operation : Operation) :
    SeenAs untraced (operation.run (δ := Traced δ)) operation.run := by
  refine SeenAs.bind ?_ fun _ => .pure ()
  cases operation with
  | createNode kind service => exact (onTree_seen _).bind fun _ => .pure _
  | deleteNode id => exact (deleteNode_seen id).bind fun _ => .pure _
  | createSla request => exact (createSla_seen request).bind fun _ => .pure _
  | updateSla request => exact (updateSla_seen request).bind fun _ => .pure _
  | deleteSla id => exact (deleteSla_seen id).bind fun _ => .pure _
  | exit => exact tearDown_seen.bind fun _ => .pure _

/-- What an operation does to the device of a limiter, one thing after the other. -/
def Operation.effects (operation : Operation) (limiter : Limiter δ) : List Effect :=
  (operation.run limiter.traced).2.device.trace

/-- How an operation ends can be read off the same operation on the traced device. -/
theorem Operation.run_eq_traced (operation : Operation) (limiter : Limiter δ) :
    operation.run limiter =
      ((operation.run limiter.traced).1, (operation.run limiter.traced).2.untraced) :=
  run_seen operation limiter.traced

end Limiter

end RateTree
