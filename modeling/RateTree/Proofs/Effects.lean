import RateTree.Proofs.Cascade
import RateTree.Proofs.Tracing

/-!
# Refusals before effects

Whatever is wrong with a request is found out before the device is touched. Once something has been
done to the device, an error is the transport's, or memory has fallen short; an operation that is
refused for any other reason has left no effect behind.
-/

namespace RateTree

variable {δ α β : Type}

/-- Whether an error is the transport's, or memory fell short before it. -/
def Blamed (cause : Error) (trace : List Effect) : Prop :=
  cause.category = .adminTransport ∨ Effect.shortage ∈ trace

/-- What is known when an action under way on a traced device has ended: nothing that was recorded is
lost, and there is something to blame for an error. -/
structure Accounted (state : Traced δ) (ended : Outcome α × Traced δ) : Prop where
  grows : state.trace ⊆ ended.2.trace
  blames : ∀ cause, ended.1 = .error (.error cause) → Blamed cause ended.2.trace

/-- Whether an action is refused by the transport or for want of memory only. -/
def OnlyDeviceRefuses (action : Action (Traced δ) α) : Prop :=
  ∀ state, Accounted state (action state)

/-- Whether writing a register of a device is never refused: a write has no answer, and at most breaks off
with a fault. -/
def WritesPass (δ : Type) [RegisterAccess δ] : Prop :=
  ∀ offset value (device : δ) cause after,
    writeRegister offset value device ≠ (.error (.error cause), after)

namespace OnlyDeviceRefuses

theorem pure (value : α) : OnlyDeviceRefuses (Pure.pure value : Action (Traced δ) α) := by
  refine fun state => ⟨List.Subset.refl _, ?_⟩
  rintro cause ⟨⟩

theorem bind {action : Action (Traced δ) α} {next : α → Action (Traced δ) β}
    (first : OnlyDeviceRefuses action) (second : ∀ value, OnlyDeviceRefuses (next value)) :
    OnlyDeviceRefuses (action >>= next) := by
  intro state
  have begun := first state
  rw [Action.bind_apply]
  rcases ended : action state with ⟨failure | value, after⟩ <;> rw [ended] at begun
  · refine ⟨begun.grows, ?_⟩
    rintro cause ⟨⟩
    exact begun.blames cause rfl
  · have done := second value after
    exact ⟨List.Subset.trans begun.grows done.grows, done.blames⟩

theorem forEach {items : List α} {each : α → Action (Traced δ) Unit}
    (one : ∀ item, OnlyDeviceRefuses (each item)) : OnlyDeviceRefuses (Action.forEach items each) := by
  induction items with
  | nil => exact pure ()
  | cons item rest ih => exact (one item).bind fun _ => ih

theorem undoOnError {action : Action (Traced δ) α} {undo : Action (Traced δ) Unit}
    (first : OnlyDeviceRefuses action) (back : OnlyDeviceRefuses undo) :
    OnlyDeviceRefuses (action.undoOnError undo) := by
  intro state
  have begun := first state
  simp only [Action.undoOnError]
  rcases ended : action state with ⟨(cause | cause) | value, after⟩ <;> rw [ended] at begun
  · have undone := back after
    have kept := List.Subset.trans begun.grows undone.grows
    simp only
    rcases back_ended : undo after with ⟨failure | ⟨⟩, restored⟩ <;> rw [back_ended] at undone kept
    · refine ⟨kept, ?_⟩
      rintro second ⟨⟩
      exact undone.blames second rfl
    · refine ⟨kept, ?_⟩
      rintro _ ⟨⟩
      exact (begun.blames cause rfl).imp_right fun mem => undone.grows mem
  · exact begun
  · exact begun

theorem observe {effects : Outcome α → List Effect} {action : Action δ α}
    (blames : ∀ device cause after, action device = (.error (.error cause), after) →
      Blamed cause (effects (.error (.error cause)))) :
    OnlyDeviceRefuses (Traced.observe effects action) := by
  intro state
  simp only [Traced.observe]
  rcases ended : action state.device with ⟨failure | value, after⟩
  · refine ⟨List.subset_append_left _ _, ?_⟩
    rintro cause ⟨⟩
    exact (blames _ cause after ended).imp_right fun mem => List.mem_append_right _ mem
  · refine ⟨List.subset_append_left _ _, ?_⟩
    rintro cause ⟨⟩

/-- A block that is not handed out is recorded as a shortage. -/
theorem withBlock [BlockMemory δ] {use : BlockUse} {size : Nat}
    {action : Block → Action (Traced δ) α} (inner : ∀ block, OnlyDeviceRefuses (action block)) :
    OnlyDeviceRefuses (RateTree.withBlock use size action) := by
  intro state
  have lent : Accounted state (BlockMemory.allocate use size state) := by
    refine observe ?_ state
    intro _ cause _ _
    exact .inr (by simp [Effect.ofAllocation])
  simp only [RateTree.withBlock]
  rcases ended : BlockMemory.allocate use size state with ⟨failure | block, between⟩ <;>
    rw [ended] at lent
  · refine ⟨lent.grows, ?_⟩
    rintro cause ⟨⟩
    exact lent.blames cause rfl
  · have acted := inner block between
    exact ⟨List.Subset.trans lent.grows acted.grows, acted.blames⟩

section Channel

variable [BlockMemory δ] [AdminTransport δ]

omit [BlockMemory δ] in
/-- Whatever an exchange fails with is reported as an error of the transport. -/
theorem roundTrip (request : AdminRequest) :
    OnlyDeviceRefuses (AdminChannel.roundTrip (σ := Traced δ) request) := by
  have exchanged : OnlyDeviceRefuses ((AdminTransport.exchange (σ := Traced δ) request).mapError
      (AdminChannel.carrierError request.command)) := by
    intro state
    have grows : state.trace ⊆ (AdminTransport.exchange request state).2.trace :=
      List.subset_append_left _ _
    simp only [Action.mapError]
    rcases ended : AdminTransport.exchange request state with
      ⟨(cause | cause) | response, after⟩ <;> rw [ended] at grows
    · refine ⟨grows, ?_⟩
      rintro _ ⟨⟩
      exact .inl (by cases cause <;> rfl)
    · refine ⟨grows, ?_⟩
      rintro _ ⟨⟩
    · refine ⟨grows, ?_⟩
      rintro _ ⟨⟩
  have refused (failure : AdminFailure) :
      OnlyDeviceRefuses (Action.refuse (.admin request.command failure) : Action (Traced δ) Unit) := by
    refine fun state => ⟨List.Subset.refl _, ?_⟩
    rintro _ ⟨⟩
    exact .inl rfl
  apply exchanged.bind
  intro response
  split
  · exact refused _
  · split
    · exact refused _
    · exact pure ()

theorem sendSla {command : AdminCommand} (no_reset : command ≠ .init) {id : NodeId} {kind : NodeKind}
    (known : id.kind? = some kind) (service : Service) (tokens : Tokens) {rings : List Nat}
    (few : rings.length ≤ maxRings) (small : ∀ ring ∈ rings, ring < 2 ^ 16) :
    OnlyDeviceRefuses (AdminChannel.sendSla (σ := Traced δ) command id service tokens rings) := by
  have listed : AdminChannel.ringIds rings = .ok (rings.map Nat.toUInt16) :=
    AdminChannel.ringIds_eq_ok.2 ⟨few, small, rfl⟩
  simp only [AdminChannel.sendSla, if_neg no_reset, known, listed]
  apply (pure _).bind
  intro ids
  apply withBlock
  intro block
  split
  · refine (observe ?_).bind fun _ => roundTrip _
    intro _ cause _ _
    exact .inr (by simp [Effect.ofFill])
  · exact roundTrip _

end Channel

section Linking

variable [RegisterAccess δ]

theorem set (pass : WritesPass δ) (table : LinkTable) (index : Nat) (value : UInt32) :
    OnlyDeviceRefuses (table.set (σ := Traced δ) index value) := by
  have written : OnlyDeviceRefuses (writeRegister (σ := Traced δ) (table.offset index) value) := by
    apply observe
    intro device cause after failed
    exact absurd failed (pass _ _ device cause after)
  exact written

theorem link (pass : WritesPass δ) {id : NodeId} {kind : NodeKind} (known : id.kind? = some kind)
    {parent : Option NodeId} (placed : parent = none → kind = .root) (rings : List Nat) :
    OnlyDeviceRefuses (LinkTable.link (σ := Traced δ) id parent rings) := by
  simp only [LinkTable.link]
  split
  · next unknown =>
    rw [known] at unknown
    contradiction
  · exact pure ()
  · next level inner is =>
    rw [known, Option.some.injEq] at is
    exact absurd (is.symm.trans (placed rfl)) inner
  · exact (forEach fun _ => set pass _ _ _).bind fun _ => set pass _ _ _
  · exact set pass _ _ _

theorem unlink (pass : WritesPass δ) (id : NodeId) (rings : List Nat) :
    OnlyDeviceRefuses (LinkTable.unlink (σ := Traced δ) id rings) := by
  simp only [LinkTable.unlink]
  split
  · exact (forEach fun _ => set pass _ _ _).bind fun _ => set pass _ _ _
  · exact set pass _ _ _
  · exact pure ()
  · exact pure ()

end Linking

end OnlyDeviceRefuses

theorem Bench.writesPass : WritesPass Bench := by
  intro offset value bench cause after failed
  simp only [writeRegister] at failed
  split at failed
  · split at failed <;> cases failed
  · cases failed

namespace Limiter

variable {π : Type} [RegisterAccess δ] [BlockMemory δ] [AdminTransport δ] {tree : Tree}

omit [RegisterAccess δ] in
theorem sendSla_onlyDeviceRefuses (sound : tree.WellFormed) {id : NodeId} {sla : Sla} {rings : List Nat}
    (owns : tree.Owns id sla rings) {command : AdminCommand} (no_reset : command ≠ .init)
    (service : Service) (tokens : Tokens) :
    OnlyDeviceRefuses (AdminChannel.sendSla (σ := Traced δ) command id service tokens rings) := by
  rcases sound.kind?_of_owns owns with ⟨kind, known⟩
  have small := sound.small_of_owns owns
  rcases owns with ⟨_, _, _, _, rings_eq⟩
  exact .sendSla no_reset known service tokens (Tree.few_of_ringsOf rings_eq) small

theorem applyCreate_onlyDeviceRefuses (pass : WritesPass δ) (sound : tree.WellFormed) {request : Sla}
    {plan : Tree.CreatePlan} (planned : tree.planCreate request = .ok plan) :
    OnlyDeviceRefuses (applyCreate (δ := Traced δ) plan) := by
  rcases Tree.planCreate_accepted planned with ⟨node, accepted⟩
  have known : plan.sla.node.kind? = some node.kind := by
    rw [accepted.sla_node, accepted.known sound]
  have placed := accepted.root_of_parent_eq_none sound
  refine (OnlyDeviceRefuses.link pass known placed _).bind fun _ => .undoOnError ?_ (.unlink pass _ _)
  exact sendSla_onlyDeviceRefuses (sound.commitCreate planned) (accepted.owns sound) (by decide) _ _

theorem applyUpdate_onlyDeviceRefuses (pass : WritesPass δ) (sound : tree.WellFormed) {request : Sla}
    {plan : Tree.UpdatePlan} (planned : tree.planUpdate request = .ok plan) :
    OnlyDeviceRefuses (applyUpdate (δ := Traced δ) plan) := by
  rcases Tree.planUpdate_accepted planned with ⟨node, accepted⟩
  have sends : OnlyDeviceRefuses (AdminChannel.sendSla (σ := Traced δ) .update plan.id plan.sla.service
      plan.tokens plan.rings) := sendSla_onlyDeviceRefuses sound accepted.owns (by decide) _ _
  simp only [applyUpdate]
  split
  · split
    · exact sends
    · exact (OnlyDeviceRefuses.set pass _ _ _).bind fun _ => sends.undoOnError (.set pass _ _ _)
  · exact sends

theorem applyDelete_onlyDeviceRefuses (pass : WritesPass δ) (sound : tree.WellFormed) {id : NodeId}
    {plan : Tree.DeletePlan} (planned : tree.planDelete id = .ok plan) :
    OnlyDeviceRefuses (applyDelete (δ := Traced δ) plan) := by
  rcases Tree.planDelete_accepted planned with ⟨node, accepted⟩
  exact (sendSla_onlyDeviceRefuses sound accepted.owns (by decide) _ _).bind fun _ => .unlink pass _ _

/-- How an operation on a traced device can be refused: before anything was done, or with something to
blame. -/
def Answers (limiter after : Limiter (Traced δ)) (cause : Error) : Prop :=
  after = limiter ∨ Blamed cause after.device.trace

variable {limiter after : Limiter (Traced δ)} {cause : Error}

omit [RegisterAccess δ] [BlockMemory δ] [AdminTransport δ] in
theorem carryOut_answers {plan : Tree → Outcome π} {apply : π → Action (Traced δ) Unit}
    {commit : Tree → π → Tree} {result : π → α}
    (refuses : ∀ accepted, plan limiter.tree = .ok accepted → OnlyDeviceRefuses (apply accepted))
    (run : carryOut plan apply commit result limiter = (.error (.error cause), after)) :
    Answers limiter after cause := by
  have ended := carryOut_cases plan apply commit result limiter
  rw [run] at ended
  cases ended with
  | refused planned => exact .inl rfl
  | failed planned applied =>
      have accounted := refuses _ planned limiter.device
      rw [applied] at accounted
      exact .inr (accounted.blames cause rfl)

/-- A deletion that was planned is refused with something to blame. -/
theorem deleteSla_blames (pass : WritesPass δ) (sound : limiter.tree.WellFormed) {id : NodeId}
    {plan : Tree.DeletePlan} (planned : limiter.tree.planDelete id = .ok plan)
    (run : deleteSla id limiter = (.error (.error cause), after)) :
    Blamed cause after.device.trace := by
  have accounted := applyDelete_onlyDeviceRefuses pass sound planned limiter.device
  simp only [deleteSla, carryOut, planned] at run
  rcases applied : applyDelete plan limiter.device with ⟨failure | ⟨⟩, device⟩
  · rw [applied] at run accounted
    cases run
    exact accounted.blames cause rfl
  · rw [applied] at run
    cases run

/-- A removal that passes its own check is refused with something to blame: the agreements that it takes
away may all go. -/
theorem deleteNode_answers (pass : WritesPass δ) (sound : limiter.tree.WellFormed) {id : NodeId}
    (run : deleteNode id limiter = (.error (.error cause), after)) :
    Answers limiter after cause := by
  simp only [deleteNode, Action.bind_apply, Action.get_apply, Action.liftError_apply] at run
  cases removable : limiter.tree.checkRemovable id with
  | error refusal =>
      rw [removable] at run
      cases run
      exact .inl rfl
  | ok kind =>
      rw [removable] at run
      rcases Tree.checkRemovable_eq_ok.1 removable with ⟨known, inner, -, node, found⟩
      rcases Action.bind_eq_error.1 run with cascade | ⟨_, between, cascade, rest⟩
      · rcases Action.forEach_eq_error cascade with ⟨done, leaf, others, between, below, deleted,
          failed⟩
        have deletes := deletes_of_forEach deleted
        rcases sound.exists_planDelete_leaf below deletes with ⟨plan, planned⟩
        exact .inr (deleteSla_blames pass (deletes.wellFormed sound) planned failed)
      · have deletes := deletes_of_forEach cascade
        have between_sound := deletes.wellFormed sound
        rcases sound.exists_planDelete_own found inner known deletes with ⟨left, left_found, may_go⟩
        rcases Action.bind_eq_error.1 rest with own | ⟨_, bare, own, removing⟩
        · rw [deleteSlaIfAny_apply, left_found] at own
          simp only at own
          split at own
          · next bound =>
            rcases may_go bound with ⟨plan, planned⟩
            exact .inr (deleteSla_blames pass between_sound planned own)
          · cases own
        · exact absurd removing (removeNode_ne_error between_sound own kind _)

theorem run_answers (pass : WritesPass δ) (sound : limiter.tree.WellFormed) {operation : Operation}
    (run : operation.run limiter = (.error (.error cause), after)) :
    Answers limiter after cause := by
  cases operation with
  | createNode kind service =>
      rw [Operation.run_createNode] at run
      rcases Action.bind_eq_error.1 run with refused | ⟨id, between, -, ⟨⟩⟩
      simp only [createNode, onTree] at refused
      split at refused
      · cases refused
      · cases refused
        exact .inl rfl
  | deleteNode id =>
      rw [Operation.run_deleteNode] at run
      exact deleteNode_answers pass sound run
  | createSla request =>
      rw [Operation.run_createSla] at run
      rcases Action.bind_eq_error.1 run with refused | ⟨id, between, -, ⟨⟩⟩
      exact carryOut_answers (fun _ planned => applyCreate_onlyDeviceRefuses pass sound planned) refused
  | updateSla request =>
      rw [Operation.run_updateSla] at run
      exact carryOut_answers (fun _ planned => applyUpdate_onlyDeviceRefuses pass sound planned) run
  | deleteSla id =>
      rw [Operation.run_deleteSla] at run
      exact carryOut_answers (fun _ planned => applyDelete_onlyDeviceRefuses pass sound planned) run
  | exit =>
      rw [Operation.run_exit] at run
      exact absurd run tearDown_ne_error

/-- An operation that is refused, but not by the transport, has written no register, has sent no request
and has been handed out no memory, if memory has not fallen short. -/
theorem refused_operations_touch_nothing {profile : Profile} {config : DeviceConfig}
    {initial : δ → Prop} {moves : δ → δ → Prop} {limiter after : Limiter δ}
    (reached : Reachable profile config initial moves limiter) (pass : WritesPass δ)
    {operation : Operation} {cause : Error}
    (run : operation.run limiter = (.error (.error cause), after))
    (other : cause.category ≠ .adminTransport) (served : .shortage ∉ operation.effects limiter) :
    operation.effects limiter = [] ∧ after = limiter := by
  have sound : limiter.traced.tree.WellFormed := reached.wellFormed
  rw [operation.run_eq_traced] at run
  rcases ended : operation.run limiter.traced with ⟨outcome, last⟩
  rw [ended] at run
  cases run
  rw [Operation.effects, ended] at served ⊢
  rcases run_answers pass sound ended with same | transport | short
  · subst same
    exact ⟨rfl, rfl⟩
  · exact absurd transport other
  · exact absurd short served

omit [RegisterAccess δ] [BlockMemory δ] [AdminTransport δ] in
/-- In a run on a bench, taking away the agreement of a cluster whose leaf has one is refused without
touching the device, which taking away the leaf's does touch. -/
theorem refused_operations_touch_nothing_on_bench :
    ∃ limiter : Limiter Bench,
      Reachable Profile.gen4 smallConfig (fun device => device = .fresh) Eq limiter ∧
      (Operation.deleteSla firstLeaf.node).effects limiter ≠ [] ∧
      (Operation.deleteSla (.ofSlot .cluster 0)).run limiter =
        (.error (.error (.permissionDenied (.childrenAttached (.ofSlot .cluster 0) .leaf))),
          limiter) ∧
      (Operation.deleteSla (.ofSlot .cluster 0)).effects limiter = [] := by
  have passed : comesUp (fun limiter =>
      let after := withFirstLeaf limiter
      decide ((Operation.deleteSla firstLeaf.node).effects after ≠ [] ∧
        ((Operation.deleteSla (.ofSlot .cluster 0)).run after).1 =
          .error (.error (.permissionDenied (.childrenAttached (.ofSlot .cluster 0) .leaf))) ∧
        .shortage ∉ (Operation.deleteSla (.ofSlot .cluster 0)).effects after)) = true := by
    decide +kernel
  rcases exists_start passed with ⟨tree, bench, up, result⟩
  simp only [decide_eq_true_eq] at result
  rcases result with ⟨touches, refused, served⟩
  have reached : Reachable Profile.gen4 smallConfig (fun device => device = .fresh) Eq
      (withFirstLeaf ⟨tree, bench⟩) := .performed (.createSla firstLeaf) (.started rfl up)
  have run : (Operation.deleteSla (.ofSlot .cluster 0)).run (withFirstLeaf ⟨tree, bench⟩) =
      (.error (.error (.permissionDenied (.childrenAttached (.ofSlot .cluster 0) .leaf))),
        ((Operation.deleteSla (.ofSlot .cluster 0)).run (withFirstLeaf ⟨tree, bench⟩)).2) :=
    Prod.ext refused rfl
  rcases refused_operations_touch_nothing reached Bench.writesPass run nofun served with
    ⟨untouched, same⟩
  rw [same] at run
  exact ⟨_, reached, touches, run, untouched⟩

end Limiter

end RateTree
