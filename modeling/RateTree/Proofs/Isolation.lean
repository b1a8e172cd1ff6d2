import RateTree.Proofs.FirmwareAgreement
import RateTree.Proofs.Frames

/-!
# Services do not interfere

An operation that is aimed at a node of one service leaves the others alone, whether it succeeds or
not: their nodes, the link entries that belong to them, and what the firmware keeps for them. The links
that an operation touches belong to the node that it is aimed at, or to a leaf below that node; no
entry has two owners, so these are nobody else's.
-/

namespace RateTree

open LinkTable (Belongs)

variable {δ : Type}

section View

variable [DeviceView δ]

/-- The link entries of every owner but one are the same as before. -/
def Spares (tree : Tree) (id : NodeId) (before after : δ) : Prop :=
  ∀ other sla rings, tree.Owns other sla rings → other ≠ id → ∀ table index,
    Belongs other rings table index → linkEntry after table index = linkEntry before table index

namespace Spares

variable {tree : Tree} {id : NodeId} {before after : δ}

theorem of_sameLinks (sound : tree.WellFormed) (same : SameLinks before after) :
    Spares tree id before after :=
  fun _ _ _ owns _ table index belongs => same table index (sound.fits owns table index belongs)

theorem of_kept (sound : tree.WellFormed) {sla : Sla} {rings : List Nat} (owns : tree.Owns id sla rings)
    (kept : ∀ table index, index < table.extent → ¬Belongs id rings table index →
      linkEntry after table index = linkEntry before table index) : Spares tree id before after := by
  intro other otherSla owned other_owns different table index belongs
  apply kept table index (sound.fits other_owns table index belongs)
  intro own
  exact different (sound.owner_unique other_owns owns belongs own)

/-- The entries of a node that owns nothing yet are kept apart from those of every owner. -/
theorem of_new (sound : tree.WellFormed) {request : Sla} {plan : Tree.CreatePlan}
    (planned : tree.planCreate request = .ok plan)
    (kept : ∀ table index, index < table.extent → ¬Belongs plan.sla.node plan.rings table index →
      linkEntry after table index = linkEntry before table index) :
    Spares tree request.node before after := by
  rcases Tree.planCreate_accepted planned with ⟨node, accepted⟩
  have later := of_kept (sound.commitCreate planned) (accepted.owns sound) kept
  intro other sla rings owns _
  rcases accepted.still_owns sound owns with ⟨different, still⟩
  exact later other sla rings still different

end Spares

end View

namespace Limiter

section Applying

variable [LinkedDevice δ] {tree : Tree} {device : δ} {id : NodeId}

/-- Whether an action keeps the link entries of every owner but one, whatever comes of it. -/
def KeepsOwners (tree : Tree) (id : NodeId) (action : Action δ Unit) (device : δ) : Prop :=
  Action.Ensures intact action device (fun _ => Spares tree id device) (Spares tree id device)

theorem applyCreate_keepsOwners (sound : tree.WellFormed) {request : Sla} {plan : Tree.CreatePlan}
    (planned : tree.planCreate request = .ok plan) :
    KeepsOwners tree request.node (applyCreate plan) device := by
  rcases Tree.planCreate_accepted planned with ⟨node, accepted⟩
  have fits := (sound.commitCreate planned).fits (accepted.owns sound)
  refine (applyCreate_ensures fits).weaken ?_ ?_
  · intro _ after linked
    exact .of_new sound planned linked.kept
  · intro after withdrawn
    apply Spares.of_new sound planned
    intro table index inside apart
    rcases withdrawn.links table index inside with same | ⟨belongs, -⟩
    · exact same
    · contradiction

theorem applyUpdate_keepsOwners (sound : tree.WellFormed) {request : Sla} {plan : Tree.UpdatePlan}
    (planned : tree.planUpdate request = .ok plan) :
    KeepsOwners tree request.id (applyUpdate plan) device := by
  rcases Tree.planUpdate_accepted planned with ⟨node, accepted⟩
  rw [← accepted.id_eq]
  refine (applyUpdate_repoints sound planned).weaken ?_ ?_
  · intro _ after repointed
    exact .of_kept sound accepted.owns fun _ _ inside apart => repointed.kept inside apart
  · intro after putBack
    exact .of_kept sound accepted.owns fun _ _ inside apart => putBack.kept inside apart

theorem applyDelete_keepsOwners (sound : tree.WellFormed) {plan : Tree.DeletePlan}
    (planned : tree.planDelete id = .ok plan) : KeepsOwners tree id (applyDelete plan) device := by
  rcases Tree.planDelete_accepted planned with ⟨node, accepted⟩
  rw [← accepted.id_eq]
  refine (applyDelete_ensures (sound.fits accepted.owns)).weaken ?_ ?_
  · intro _ after unlinked
    exact .of_kept sound accepted.owns unlinked.kept
  · intro after undisturbed
    exact .of_sameLinks sound undisturbed.links

end Applying

/-! ## Calls and operations -/

/-- The node that a call is aimed at; a new node has none to be aimed at. -/
def Call.target? : Call → Option NodeId
  | .createNode _ _ => none
  | .removeNode id _ | .deleteSla id => some id
  | .createSla request => some request.node
  | .updateSla request => some request.id

/-- The node that an operation is aimed at. -/
def Operation.target? : Operation → Option NodeId
  | .createNode _ _ | .exit => none
  | .deleteNode id | .deleteSla id => some id
  | .createSla request => some request.node
  | .updateSla request => some request.id

section Isolated

variable [LinkedDevice δ]

/-- Nodes of other services than a given one are the same as before, and so are the link entries that
belong to them unless a fault has cut short the work on the device. -/
structure Isolated (service : Service) (limiter after : Limiter δ) : Prop where
  tree : limiter.tree.KeepsOthers service after.tree
  was_intact : intact after.device → intact limiter.device
  links : intact after.device → ∀ id node sla rings, limiter.tree.nodes.find? id = some node →
    node.service ≠ service → limiter.tree.Owns id sla rings → ∀ table index,
      Belongs id rings table index →
      linkEntry after.device table index = linkEntry limiter.device table index

variable {service : Service} {limiter between after : Limiter δ} {id : NodeId}

namespace Isolated

theorem refl (service : Service) (limiter : Limiter δ) : Isolated service limiter limiter :=
  ⟨.refl service limiter.tree, fun still => still, fun _ _ _ _ _ _ _ _ _ _ _ => rfl⟩

theorem trans (first : Isolated service limiter between) (second : Isolated service between after) :
    Isolated service limiter after where
  tree := first.tree.trans second.tree
  was_intact still := first.was_intact (second.was_intact still)
  links still id node sla rings found different owns table index belongs := by
    have found_between := (first.tree.nodes id node different).2 found
    have owns_between := first.tree.owns found different owns
    rw [second.links still id node sla rings found_between different owns_between table index belongs]
    exact first.links (second.was_intact still) id node sla rings found different owns table index
      belongs

end Isolated

theorem carryOut_isolated {α π : Type} {plan : Tree → Outcome π} {apply : π → Action δ Unit}
    {commit : Tree → π → Tree} {result : π → α} (own : limiter.tree.OfService service id)
    (applies : ∀ accepted, plan limiter.tree = .ok accepted →
      KeepsOwners limiter.tree id (apply accepted) limiter.device)
    (commits : ∀ accepted, plan limiter.tree = .ok accepted →
      limiter.tree.KeepsOthers service (commit limiter.tree accepted)) :
    Isolated service limiter (carryOut plan apply commit result limiter).2 := by
  -- A node of another service is not the one that the plan is for.
  have links {device : δ} (spares : Spares limiter.tree id limiter.device device) (other : NodeId)
      (node : Node) (sla : Sla) (rings : List Nat)
      (found : limiter.tree.nodes.find? other = some node) (different : node.service ≠ service)
      (owns : limiter.tree.Owns other sla rings) (table : LinkTable) (index : Nat)
      (belongs : Belongs other rings table index) :
      linkEntry device table index = linkEntry limiter.device table index := by
    apply spares other sla rings owns _ table index belongs
    rintro rfl
    exact different (own node found)
  have ended := carryOut_cases plan apply commit result limiter
  generalize carryOut plan apply commit result limiter = finished at ended ⊢
  cases ended with
  | refused planned => exact .refl service limiter
  | @failed accepted failure device planned run =>
      cases failure with
      | error cause =>
          rcases (applies _ planned).of_error run with ⟨was_intact, spares⟩
          exact ⟨.refl service limiter.tree, was_intact, fun _ => links spares⟩
      | fault cause =>
          have broken := (applies _ planned).of_fault run
          exact ⟨.refl service limiter.tree, fun still => absurd still broken,
            fun still => absurd still broken⟩
  | done planned run =>
      rcases (applies _ planned).of_ok run with ⟨was_intact, spares⟩
      exact ⟨commits _ planned, was_intact, fun _ => links spares⟩

theorem Call.isolated {call : Call} (sound : limiter.tree.WellFormed) (aimed : call.target? = some id)
    (own : limiter.tree.OfService service id) : Isolated service limiter (call.leaves limiter) := by
  cases call with
  | createNode kind service => contradiction
  | removeNode removed kind =>
      cases aimed
      simp only [leaves, Limiter.removeNode, onTree]
      split
      · next rest removed =>
        rcases Outcome.map_eq_ok.1 removed with ⟨tree, removed, rest_eq⟩
        cases rest_eq
        exact ⟨Tree.keepsOthers_removeNode removed own, fun still => still,
          fun _ _ _ _ _ _ _ _ _ _ _ => rfl⟩
      · exact .refl service limiter
  | createSla request =>
      cases aimed
      exact carryOut_isolated own (fun _ planned => applyCreate_keepsOwners sound planned)
        fun _ planned => sound.keepsOthers_commitCreate planned own
  | updateSla request =>
      cases aimed
      exact carryOut_isolated own (fun _ planned => applyUpdate_keepsOwners sound planned)
        fun _ planned => sound.keepsOthers_commitUpdate planned own
  | deleteSla id =>
      cases aimed
      exact carryOut_isolated own (fun _ planned => applyDelete_keepsOwners sound planned)
        fun _ planned => sound.keepsOthers_commitDelete planned own

/-- So do calls one after the other that are all aimed at nodes of the service. -/
theorem Steps.isolated (sound : limiter.tree.WellFormed)
    (steps : Steps (fun _ call => ∃ id, call.target? = some id ∧ limiter.tree.OfService service id)
      limiter after) : Isolated service limiter after := by
  have both : after.tree.WellFormed ∧ Isolated service limiter after := by
    apply steps.keep _ ⟨sound, Isolated.refl service limiter⟩
    rintro between call admissible ⟨id, aimed, own⟩ ⟨formed, isolated⟩
    exact ⟨call.wellFormed_leaves admissible formed,
      isolated.trans (call.isolated formed aimed (isolated.tree.ofService own))⟩
  exact both.2

theorem Operation.isolated {operation : Operation} (sound : limiter.tree.WellFormed)
    (aimed : operation.target? = some id) (own : limiter.tree.OfService service id) :
    Isolated service limiter (operation.run limiter).2 := by
  cases operation with
  | createNode kind service => contradiction
  | exit => contradiction
  | deleteNode id =>
      cases aimed
      rw [Operation.run_deleteNode]
      -- The calls are aimed at the leaves below the node and at the node itself.
      apply Steps.isolated sound
      apply MadeOf.steps_deleteNode
      · intro kind _ leaf mem
        exact ⟨leaf, rfl, sound.ofService_of_mem_leavesBelow own mem⟩
      · exact ⟨id, rfl, own⟩
      · exact fun _ => ⟨id, rfl, own⟩
  | createSla request =>
      cases aimed
      rw [Operation.run_createSla, Action.bind_pure_snd]
      exact (Call.createSla request).isolated sound rfl own
  | updateSla request =>
      rw [Operation.run_updateSla]
      exact (Call.updateSla request).isolated sound aimed own
  | deleteSla id =>
      rw [Operation.run_deleteSla]
      exact (Call.deleteSla id).isolated sound aimed own

/-- An operation on one agreement that succeeds changes the node that it is aimed at, and what remains
of the budgets of the node's parents before and after. -/
theorem Operation.changesOnly {operation : Operation} (sound : limiter.tree.WellFormed)
    (aimed : operation.target? = some id) (single : operation ≠ .deleteNode id)
    (done : (operation.run limiter).1 = .ok ()) :
    limiter.tree.ChangesOnly (operation.run limiter).2.tree id := by
  cases operation with
  | createNode kind service => contradiction
  | exit => contradiction
  | deleteNode id =>
      cases aimed
      contradiction
  | createSla request =>
      cases aimed
      rw [Operation.run_createSla] at done ⊢
      rcases Action.bind_eq_ok.1 (Prod.ext done rfl) with ⟨value, between, created, -⟩
      rcases carryOut_eq_ok created with ⟨plan, planned, -, -, tree_eq⟩
      rw [Action.bind_pure_snd, created, tree_eq]
      exact sound.changesOnly_commitCreate planned
  | updateSla request =>
      cases aimed
      rw [Operation.run_updateSla] at done ⊢
      rcases carryOut_eq_ok (Prod.ext done rfl) with ⟨plan, planned, -, -, tree_eq⟩
      have changes := sound.changesOnly_commitUpdate planned
      rw [← tree_eq] at changes
      exact changes
  | deleteSla id =>
      cases aimed
      rw [Operation.run_deleteSla] at done ⊢
      rcases carryOut_eq_ok (Prod.ext done rfl) with ⟨plan, planned, -, -, tree_eq⟩
      have changes := sound.changesOnly_commitDelete planned
      rw [← tree_eq] at changes
      exact changes

end Isolated

/-! ## The firmware -/

/-- What the firmware keeps for the nodes of other services is the same as before. -/
def FirmwareIsolated (service : Service) (limiter after : Limiter Bench) : Prop :=
  ∀ id node, limiter.tree.nodes.find? id = some node → node.service ≠ service →
    after.device.firmware.parametersOf? node.kind.tag.toUInt8 id.index.toUInt32 =
      limiter.device.firmware.parametersOf? node.kind.tag.toUInt8 id.index.toUInt32

/-- Firmware that describes a tree before and after keeps what belongs to the nodes that are the same. -/
theorem firmwareIsolated_of_describedBy {service : Service} {limiter after : Limiter Bench}
    (sound : limiter.tree.WellFormed) (sound_after : after.tree.WellFormed)
    (keeps : limiter.tree.KeepsOthers service after.tree)
    (described : limiter.tree.DescribedBy limiter.device.firmware.configured)
    (described_after : after.tree.DescribedBy after.device.firmware.configured) :
    FirmwareIsolated service limiter after := by
  intro id node found different
  have found_after := (keeps.nodes id node different).2 found
  have tag_eq := NodeId.tag_eq_of_kind? (sound.placed id node found).2
  rw [Firmware.parametersOf?, Firmware.parametersOf?, ← tag_eq]
  by_cases bound : node.configured = true
  · rcases sound.exists_owns found bound with ⟨sla, rings, -, -, owns⟩
    exact described.lookup_of_owns described_after keeps.constants.1 owns
      (keeps.owns found different owns)
  · have vacant : node.configured = false := by simpa using bound
    exact (described_after.lookup_of_vacant sound_after found_after vacant).trans
      (described.lookup_of_vacant sound found vacant).symm

/-- Services do not interfere: after any run, whatever the device answers, an operation that is aimed at
a node of one service leaves the nodes and the link entries of the other services alone, and on a bench
within direct reach what the firmware keeps for them; and an operation on one agreement that succeeds
changes no other node but in what remains of the budgets of its parents before and after. -/
theorem operations_stay_within_service {profile : Profile} {config : DeviceConfig}
    {operation : Operation} {target : NodeId} (aimed : operation.target? = some target)
    {service : Service} :
    (∀ (δ : Type) [LinkedDevice δ] (initial : δ → Prop) (moves : δ → δ → Prop) (limiter : Limiter δ),
      Reachable profile config initial moves limiter → limiter.tree.OfService service target →
        Isolated service limiter (operation.run limiter).2 ∧
        (operation ≠ .deleteNode target → (operation.run limiter).1 = .ok () →
          limiter.tree.ChangesOnly (operation.run limiter).2.tree target)) ∧
    ∀ limiter : Limiter Bench, Reachable profile config Bench.Direct Injects limiter →
      limiter.tree.OfService service target →
        FirmwareIsolated service limiter (operation.run limiter).2 := by
  constructor
  · intro δ _ initial moves limiter reached own
    have sound := reached.wellFormed
    exact ⟨operation.isolated sound aimed own, operation.changesOnly sound aimed⟩
  · intro limiter reached own
    have later := reached.performed operation
    have isolated := operation.isolated reached.wellFormed aimed own
    exact firmwareIsolated_of_describedBy reached.wellFormed later.wellFormed isolated.tree
      reached.agrees_always.described later.agrees_always.described

/-- In a run on a bench, the agreement of the first leaf is deleted, and the cluster of the other service
is there before and after. -/
theorem operations_stay_within_service_on_bench :
    ∃ limiter : Limiter Bench, ∃ cluster,
      Reachable Profile.gen4 smallConfig Bench.Direct Injects limiter ∧
      limiter.tree.OfService .sym firstLeaf.node ∧
      (Operation.run (.deleteSla firstLeaf.node) limiter).1 = .ok () ∧
      limiter.tree.nodes.find? (.ofSlot .cluster 1) = some cluster ∧ cluster.service = .dc ∧
      cluster.configured = true ∧
      Isolated .sym limiter (Operation.run (.deleteSla firstLeaf.node) limiter).2 ∧
      limiter.tree.ChangesOnly (Operation.run (.deleteSla firstLeaf.node) limiter).2.tree
        firstLeaf.node ∧
      FirmwareIsolated .sym limiter (Operation.run (.deleteSla firstLeaf.node) limiter).2 := by
  have passed : comesUp (fun limiter =>
      let after := withFirstLeaf limiter
      decide (((Operation.deleteSla firstLeaf.node).run after).1 = .ok ()) &&
        (after.tree.nodes.find? firstLeaf.node).all (fun leaf => leaf.service == .sym) &&
        (after.tree.nodes.find? (.ofSlot .cluster 1)).any fun cluster =>
          cluster.service == .dc && cluster.configured) = true := by
    decide +kernel
  have direct : Bench.Direct Bench.fresh := ⟨rfl, rfl, rfl⟩
  rcases exists_start passed with ⟨tree, bench, up, result⟩
  simp only [Bool.and_eq_true, decide_eq_true_eq, Option.all_eq_true, Option.any_eq_true,
    beq_iff_eq] at result
  rcases result with ⟨⟨done, own⟩, cluster, found, other, bound⟩
  have reached : Reachable Profile.gen4 smallConfig Bench.Direct Injects
      (withFirstLeaf ⟨tree, bench⟩) := .performed (.createSla firstLeaf) (.started direct up)
  have aimed : (Operation.deleteSla firstLeaf.node).target? = some firstLeaf.node := rfl
  rcases operations_stay_within_service aimed with ⟨anywhere, on_bench⟩
  rcases anywhere Bench _ _ _ reached own with ⟨isolated, changes⟩
  exact ⟨_, cluster, reached, own, done, found, other, bound, isolated, changes (by decide) done,
    on_bench _ reached own⟩

end Limiter

end RateTree
