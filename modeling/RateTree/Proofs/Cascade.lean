import RateTree.Proofs.Atomicity

/-!
# Cascades

Removing a cluster takes the agreements of its leaves away one after the other, then its own, and
frees its slot last. A step that fails changes nothing, but the steps before it are not undone: a
failed removal leaves the limiter as it was exactly if no leaf had lost its agreement by then.
-/

namespace RateTree

/-- A loop that fails has done some of its items and failed on the next one. -/
theorem Action.forEach_eq_error {σ α : Type} {items : List α} {each : α → Action σ Unit}
    {state after : σ} {failure : Failure}
    (failed : Action.forEach items each state = (.error failure, after)) :
    ∃ done item rest between, items = done ++ item :: rest ∧
      Action.forEach done each state = (.ok (), between) ∧
      each item between = (.error failure, after) := by
  induction items generalizing state with
  | nil => cases failed
  | cons item rest ih =>
      rcases Action.bind_eq_error.1 failed with first | ⟨_, between, first, later⟩
      · exact ⟨[], item, rest, state, rfl, rfl, first⟩
      · rcases ih later with ⟨done, stopped, others, last, rfl, finished, refused⟩
        refine ⟨item :: done, stopped, others, last, rfl, ?_, refused⟩
        exact Action.bind_eq_ok.2 ⟨(), between, first, finished⟩

theorem Action.forEach_passOver_ne_error {σ α : Type} {items : List α} {each : α → Action σ Unit}
    {state after : σ} {cause : Error} :
    Action.forEach items (fun item => (each item).passOver) state ≠
      (.error (.error cause), after) := by
  intro failed
  rcases Action.forEach_eq_error failed with ⟨-, item, -, between, -, -, refused⟩
  simp only [Action.passOver] at refused
  split at refused
  · cases refused
  · next other => exact other _ _ refused

namespace Tree

variable {tree : Tree} {id : NodeId}

/-- Whether no agreement is bound to a node. -/
def Vacant (tree : Tree) (id : NodeId) : Prop :=
  ∀ node, tree.nodes.find? id = some node → node.configured = false

/-- The leaves whose agreements go before those of a node that is removed. -/
def leavesOf (tree : Tree) (id : NodeId) : List NodeId :=
  match id.kind? with
  | some kind => tree.leavesBelow id kind
  | none => []

theorem leavesOf_eq {kind : NodeKind} (known : id.kind? = some kind) :
    tree.leavesOf id = tree.leavesBelow id kind := by
  simp [leavesOf, known]

theorem WellFormed.not_vacant_of_mem_leavesOf (sound : tree.WellFormed) {leaf : NodeId}
    (mem : leaf ∈ tree.leavesOf id) : ¬tree.Vacant leaf := by
  intro vacant
  simp only [leavesOf] at mem
  split at mem
  · next kind _ =>
    cases kind with
    | root | leaf => simp [leavesBelow] at mem
    | cluster =>
        simp only [leavesBelow, NodeStore.configuredChildren, List.mem_map, List.mem_filter,
          Bool.and_eq_true] at mem
        rcases mem with ⟨node, ⟨node_mem, bound, -⟩, rfl⟩
        rcases sound.find?_of_mem_nodes node_mem with ⟨found, -⟩
        rw [vacant node found] at bound
        contradiction
  · simp at mem

theorem WellFormed.vacant_commitDelete (sound : tree.WellFormed) {plan : DeletePlan}
    (planned : tree.planDelete id = .ok plan) {other : NodeId}
    (gone : other = id ∨ tree.Vacant other) : (tree.commitDelete plan).Vacant other := by
  rcases planDelete_accepted planned with ⟨node, accepted⟩
  rcases accepted.rebound sound with ⟨remainder, rebound, -⟩
  intro after found
  rcases rebound.eq_or_before found with ⟨-, rfl⟩ | ⟨different, before, was, rfl⟩
  · rfl
  · rcases gone with same | vacant
    · contradiction
    · exact vacant before was

/-- No configured node hangs below a leaf. -/
theorem WellFormed.childless_of_leaf (sound : tree.WellFormed) {node : Node}
    (found : tree.nodes.find? id = some node) (leaf : node.kind = .leaf) (other : NodeId)
    (child : Node) (located : tree.nodes.find? other = some child)
    (bound : child.configured = true) : child.parent ≠ some id := by
  intro under
  rcases sound.exists_parent located bound under with ⟨-, held, there, -, above, -⟩
  rw [found, Option.some.injEq] at there
  rw [← there, leaf] at above
  cases level : child.kind <;> simp [level, NodeKind.parent?] at above

/-- An agreement with nothing below it may go. -/
theorem WellFormed.exists_planDelete (sound : tree.WellFormed) {node : Node}
    (found : tree.nodes.find? id = some node) (bound : node.configured = true)
    (childless : ∀ other child, tree.nodes.find? other = some child → child.configured = true →
      child.parent ≠ some id) : ∃ plan, tree.planDelete id = .ok plan := by
  have known := (sound.placed id node found).2
  have in_range := NodeId.inRange_iff.2 ⟨known, sound.index_lt_capacity found⟩
  rcases sound.bound id node found bound with ⟨sla, carried, carries⟩
  rcases carries.rings with ⟨rings, owned⟩
  simp only [planDelete, Outcome.bind_eq_ok, Outcome.liftError_eq_ok, Outcome.pure_eq_ok,
    Prod.exists, NodeId.checkKind_eq_ok, NodeId.checkRange_eq_ok, configuredNode_eq_ok,
    checkNoChildren_eq_ok]
  refine ⟨_, node.kind, known, (), in_range, node, sla, ⟨found, bound, carried⟩, (), ?_, rings, owned,
    rfl⟩
  intro level _ child mem child_bound
  exact childless child.id child (sound.find?_of_mem_nodes mem).1 child_bound

/-- A node whose agreement was deleted is still there and can be removed. -/
theorem WellFormed.removable_commitDelete (sound : tree.WellFormed) {plan : DeletePlan}
    (planned : tree.planDelete id = .ok plan) :
    ∃ node, (tree.commitDelete plan).nodes.find? id = some node ∧ node.configured = false := by
  rcases planDelete_accepted planned with ⟨node, accepted⟩
  rcases accepted.rebound sound with ⟨remainder, rebound, -⟩
  exact ⟨node.unbind, rebound.is, rfl⟩

/-- What is left of the other nodes by a deletion. -/
theorem WellFormed.find?_commitDelete (sound : tree.WellFormed) {plan : DeletePlan}
    (planned : tree.planDelete id = .ok plan) {other : NodeId} (different : other ≠ id) :
    ∃ remainder : Node → Nat, (tree.commitDelete plan).nodes.find? other =
      (tree.nodes.find? other).map fun node => { node with remaining := remainder node } := by
  rcases planDelete_accepted planned with ⟨node, accepted⟩
  rcases accepted.rebound sound with ⟨remainder, rebound, -⟩
  exact ⟨remainder other, by rw [rebound.found, if_neg different]⟩

/-- One tree leads to another by deletions of the agreements of some nodes, one after the other. -/
inductive Deletes : Tree → List NodeId → Tree → Prop where
  | nil (tree : Tree) : Deletes tree [] tree
  | cons {tree last : Tree} {id : NodeId} {ids : List NodeId} {plan : DeletePlan}
      (planned : tree.planDelete id = .ok plan) (rest : Deletes (tree.commitDelete plan) ids last) :
      Deletes tree (id :: ids) last

namespace Deletes

variable {last : Tree} {ids : List NodeId} {other : NodeId}

theorem wellFormed (deletes : Deletes tree ids last) (sound : tree.WellFormed) :
    last.WellFormed := by
  induction deletes with
  | nil => exact sound
  | cons planned _ ih => exact ih (sound.commitDelete planned)

/-- What was vacant stays so, and the nodes whose agreements were deleted are. -/
theorem vacant (deletes : Deletes tree ids last) (sound : tree.WellFormed)
    (gone : other ∈ ids ∨ tree.Vacant other) : last.Vacant other := by
  induction deletes with
  | nil => simpa using gone
  | cons planned _ ih =>
      apply ih (sound.commitDelete planned)
      rw [List.mem_cons, or_assoc, or_left_comm] at gone
      rcases gone with mem | here
      · exact .inl mem
      · exact .inr (sound.vacant_commitDelete planned here)

/-- The other nodes are there as they were, but for what remains of their budgets. -/
theorem find?_other (deletes : Deletes tree ids last) (sound : tree.WellFormed) (kept : other ∉ ids) :
    ∃ remainder : Node → Nat, last.nodes.find? other =
      (tree.nodes.find? other).map fun node => { node with remaining := remainder node } := by
  induction deletes with
  | nil tree => exact ⟨Node.remaining, by simp⟩
  | cons planned _ ih =>
      rw [List.mem_cons, not_or] at kept
      rcases sound.find?_commitDelete planned kept.1 with ⟨first, first_eq⟩
      rcases ih (sound.commitDelete planned) kept.2 with ⟨second, second_eq⟩
      refine ⟨fun node => second { node with remaining := first node }, ?_⟩
      rw [second_eq, first_eq, Option.map_map]
      rfl

/-- A node that is configured still was so before, at the same place. -/
theorem before (deletes : Deletes tree ids last) (sound : tree.WellFormed) {node : Node}
    (found : last.nodes.find? other = some node) (bound : node.configured = true) :
    other ∉ ids ∧ ∃ held, tree.nodes.find? other = some held ∧ held.configured = true ∧
      held.kind = node.kind ∧ held.parent = node.parent := by
  have kept : other ∉ ids := by
    intro mem
    rw [deletes.vacant sound (.inl mem) node found] at bound
    contradiction
  rcases deletes.find?_other sound kept with ⟨remainder, found_eq⟩
  rw [found_eq] at found
  rcases Option.map_eq_some_iff.1 found with ⟨held, was, rfl⟩
  exact ⟨kept, held, was, bound, rfl, rfl⟩

end Deletes

/-- Once the agreements of the leaves below a node are gone, no agreement is below it. -/
theorem WellFormed.childless_of_deletes (sound : tree.WellFormed) {last : Tree} {kind : NodeKind}
    {node : Node} (found : tree.nodes.find? id = some node) (inner : kind ≠ .root)
    (known : id.kind? = some kind) (deletes : Deletes tree (tree.leavesBelow id kind) last)
    (other : NodeId) (child : Node) (located : last.nodes.find? other = some child)
    (bound : child.configured = true) : child.parent ≠ some id := by
  intro under
  rcases deletes.before sound located bound with ⟨kept, held, was, was_bound, -, was_under⟩
  rw [under] at was_under
  have node_kind : node.kind = kind := by
    have placed := (sound.placed id node found).2
    rw [known, Option.some.injEq] at placed
    exact placed.symm
  cases kind with
  | root => exact inner rfl
  | leaf => exact sound.childless_of_leaf found node_kind other held was was_bound was_under
  | cluster =>
      rcases sound.exists_parent was was_bound was_under with ⟨-, above, there, -, level, -⟩
      rw [found, Option.some.injEq] at there
      rw [← there, node_kind] at level
      have leaf : held.kind = .leaf := by
        cases own : held.kind <;> simp [own, NodeKind.parent?] at level ⊢
      have mem := sound.mem_nodes_of_find? was
      rw [leaf] at mem
      apply kept
      simp only [leavesBelow, NodeStore.configuredChildren, List.mem_map, List.mem_filter,
        Bool.and_eq_true, beq_iff_eq]
      exact ⟨held, ⟨mem, was_bound, was_under⟩, (sound.placed other held was).1⟩

/-- No leaf is listed twice among those below a node. -/
theorem WellFormed.nodup_leavesBelow (sound : tree.WellFormed) (id : NodeId) (kind : NodeKind) :
    (tree.leavesBelow id kind).Nodup := by
  cases kind with
  | root | leaf => exact .nil
  | cluster => exact (List.filter_sublist.map Node.id).nodup (sound.nodup_ids .leaf)

/-- The agreement of a leaf below a node may go once those of some other leaves have gone. -/
theorem WellFormed.exists_planDelete_leaf (sound : tree.WellFormed) {kind : NodeKind}
    {done rest : List NodeId} {leaf : NodeId} (below : tree.leavesBelow id kind = done ++ leaf :: rest)
    {between : Tree} (deletes : Deletes tree done between) :
    ∃ plan, between.planDelete leaf = .ok plan := by
  have once := sound.nodup_leavesBelow id kind
  rw [below, List.nodup_append] at once
  have other : leaf ∉ done := fun mem => once.2.2 leaf mem leaf (by simp) rfl
  have mem : leaf ∈ tree.leavesBelow id kind := by simp [below]
  have leaf_found : ∃ node, tree.nodes.find? leaf = some node ∧ node.kind = .leaf ∧
      node.configured = true := by
    cases kind with
    | root | leaf => simp [leavesBelow] at mem
    | cluster =>
        simp only [leavesBelow, NodeStore.configuredChildren, List.mem_map, List.mem_filter,
          Bool.and_eq_true] at mem
        rcases mem with ⟨node, ⟨node_mem, bound, -⟩, rfl⟩
        rcases sound.find?_of_mem_nodes node_mem with ⟨found, level⟩
        exact ⟨node, found, level, bound⟩
  rcases leaf_found with ⟨node, found, level, bound⟩
  rcases deletes.find?_other sound other with ⟨remainder, found_eq⟩
  rw [found, Option.map_some] at found_eq
  have between_sound := deletes.wellFormed sound
  exact between_sound.exists_planDelete found_eq bound
    (between_sound.childless_of_leaf found_eq level)

/-- Once the agreements of the leaves below a node are gone, the node is still there, and its own
agreement may go. -/
theorem WellFormed.exists_planDelete_own (sound : tree.WellFormed) {kind : NodeKind} {node : Node}
    (found : tree.nodes.find? id = some node) (inner : kind ≠ .root)
    (known : id.kind? = some kind) {last : Tree}
    (deletes : Deletes tree (tree.leavesBelow id kind) last) :
    ∃ left, last.nodes.find? id = some left ∧
      (left.configured = true → ∃ plan, last.planDelete id = .ok plan) := by
  have own : id ∉ tree.leavesBelow id kind := by
    intro mem
    cases kind with
    | root | leaf => simp [leavesBelow] at mem
    | cluster =>
        simp only [leavesBelow, NodeStore.configuredChildren, List.mem_map, List.mem_filter] at mem
        rcases mem with ⟨leaf, ⟨leaf_mem, -⟩, rfl⟩
        rcases sound.find?_of_mem_nodes leaf_mem with ⟨leaf_found, level⟩
        rw [(sound.placed _ leaf leaf_found).2, level] at known
        contradiction
  rcases deletes.find?_other sound own with ⟨remainder, found_eq⟩
  rw [found, Option.map_some] at found_eq
  refine ⟨_, found_eq, ?_⟩
  intro bound
  exact (deletes.wellFormed sound).exists_planDelete found_eq bound
    (sound.childless_of_deletes found inner known deletes)

/-- A vacant node is removed. -/
theorem WellFormed.exists_removeNode (sound : tree.WellFormed) {node : Node}
    (found : tree.nodes.find? id = some node) (vacant : node.configured = false) (kind : NodeKind) :
    ∃ after, tree.removeNode id kind = .ok after := by
  have known := (sound.placed id node found).2
  have removed : tree.nodes.remove id =
      .ok (node, tree.nodes.setSlot node.kind id.index none) := by
    simp only [NodeStore.remove, known, found, vacant]
    rfl
  exact ⟨_, Outcome.bind_eq_ok.2 ⟨_, removed, rfl⟩⟩

end Tree

namespace Limiter

section Deletion

variable {δ : Type} [RegisterAccess δ] [BlockMemory δ] [AdminTransport δ] {limiter after : Limiter δ}
  {id : NodeId}

theorem deleteSla_eq_ok (run : deleteSla id limiter = (.ok (), after)) :
    ∃ plan, limiter.tree.planDelete id = .ok plan ∧
      applyDelete plan limiter.device = (.ok (), after.device) ∧
      after.tree = limiter.tree.commitDelete plan := by
  rcases carryOut_eq_ok run with ⟨plan, planned, applying, -, tree_eq⟩
  exact ⟨plan, planned, applying, tree_eq⟩

theorem deleteSlaIfAny_apply (id : NodeId) (limiter : Limiter δ) :
    deleteSlaIfAny id limiter =
      match limiter.tree.nodes.find? id with
      | some node => if node.configured then deleteSla id limiter else (.ok (), limiter)
      | none => (.error (.error (.notFound (.node id))), limiter) := by
  simp only [deleteSlaIfAny, Action.bind_apply, Action.get_apply, Action.liftError_apply,
    NodeStore.get]
  cases limiter.tree.nodes.find? id with
  | none => rfl
  | some node =>
      change (if node.configured then deleteSla id else pure ()) limiter = _
      cases bound : node.configured <;> simp [bound]

theorem deletes_of_forEach {ids : List NodeId}
    (run : Action.forEach ids deleteSla limiter = (.ok (), after)) :
    Tree.Deletes limiter.tree ids after.tree := by
  induction ids generalizing limiter with
  | nil =>
      cases run
      exact .nil _
  | cons first rest ih =>
      rcases Action.bind_eq_ok.1 run with ⟨_, between, deleted, later⟩
      rcases deleteSla_eq_ok deleted with ⟨plan, planned, -, tree_eq⟩
      have others := ih later
      rw [tree_eq] at others
      exact .cons planned others

/-- Once the agreement of a node is gone, nothing stands in the way of removing the node. -/
theorem removeNode_ne_error (sound : limiter.tree.WellFormed) {between : Limiter δ}
    (run : deleteSlaIfAny id limiter = (.ok (), between)) (kind : NodeKind) (failure : Failure) :
    removeNode id kind between ≠ (.error failure, after) := by
  have removable : between.tree.WellFormed ∧
      ∃ node, between.tree.nodes.find? id = some node ∧ node.configured = false := by
    rw [deleteSlaIfAny_apply] at run
    split at run
    · next node found =>
      split at run
      · rcases deleteSla_eq_ok run with ⟨plan, planned, -, tree_eq⟩
        rw [tree_eq]
        exact ⟨sound.commitDelete planned, sound.removable_commitDelete planned⟩
      · next free =>
        cases run
        exact ⟨sound, node, found, by simpa using free⟩
    · cases run
  rcases removable with ⟨formed, node, found, vacant⟩
  rcases formed.exists_removeNode found vacant kind with ⟨rest, removed⟩
  simp [removeNode, onTree, removed, Except.map]

/-- Taking everything down passes over what cannot be taken away. -/
theorem tearDown_ne_error {cause : Error} : tearDown limiter ≠ (.error (.error cause), after) := by
  intro failed
  rcases Action.bind_eq_error.1 failed with ⟨⟨⟩⟩ | ⟨_, _, ⟨⟩, after_get⟩
  rcases Action.bind_eq_error.1 after_get with leaves | ⟨_, _, -, after_leaves⟩
  · exact Action.forEach_passOver_ne_error leaves
  rcases Action.bind_eq_error.1 after_leaves with ⟨⟨⟩⟩ | ⟨_, _, -, after_look⟩
  rcases Action.bind_eq_error.1 after_look with clusters | ⟨_, _, -, after_clusters⟩
  · exact Action.forEach_passOver_ne_error clusters
  rcases Action.bind_eq_error.1 after_clusters with ⟨⟨⟩⟩ | ⟨_, _, -, roots⟩
  exact Action.forEach_passOver_ne_error roots

end Deletion

section Removal

variable {δ : Type} [LinkedDevice δ] {limiter after : Limiter δ} {id : NodeId}

/-- What deletions are known to keep whatever becomes of the device. -/
structure InLine (limiter : Limiter δ) : Prop where
  formed : limiter.tree.WellFormed
  mirrors : Mirrors limiter.tree limiter.device

namespace InLine

theorem of_deleteSla (inLine : InLine limiter) (run : deleteSla id limiter = (.ok (), after)) :
    InLine after := by
  rcases deleteSla_eq_ok run with ⟨plan, planned, applying, tree_eq⟩
  have relinked := (applyDelete_relinks inLine.formed planned).of_ok applying
  rw [← tree_eq] at relinked
  refine ⟨?_, relinked.2 inLine.mirrors⟩
  rw [tree_eq]
  exact inLine.formed.commitDelete planned

theorem of_forEach (inLine : InLine limiter) {ids : List NodeId}
    (run : Action.forEach ids deleteSla limiter = (.ok (), after)) : InLine after := by
  induction ids generalizing limiter with
  | nil =>
      cases run
      exact inLine
  | cons first rest ih =>
      rcases Action.bind_eq_ok.1 run with ⟨_, between, deleted, later⟩
      exact ih (inLine.of_deleteSla deleted) later

theorem unchanged_of_deleteSla (inLine : InLine limiter) {cause : Error}
    (run : deleteSla id limiter = (.error (.error cause), after)) : Unchanged limiter after :=
  carryOut_unchanged inLine.mirrors (fun _ planned => applyDelete_relinks inLine.formed planned) run
    (.inl ⟨cause, rfl⟩)

theorem unchanged_of_deleteSlaIfAny (inLine : InLine limiter) {cause : Error}
    (run : deleteSlaIfAny id limiter = (.error (.error cause), after)) : Unchanged limiter after := by
  rw [deleteSlaIfAny_apply] at run
  split at run
  · split at run
    · exact inLine.unchanged_of_deleteSla run
    · cases run
  · cases run
    exact .refl limiter

/-- A failed removal has deleted the agreements of some of the leaves, from the first on, and has
changed nothing else. -/
theorem of_deleteNode (inLine : InLine limiter) {cause : Error}
    (run : deleteNode id limiter = (.error (.error cause), after)) :
    ∃ withdrawn kept between, limiter.tree.leavesOf id = withdrawn ++ kept ∧
      Action.forEach withdrawn deleteSla limiter = (.ok (), between) ∧ Unchanged between after := by
  simp only [deleteNode, Action.bind_apply, Action.get_apply, Action.liftError_apply] at run
  cases removable : limiter.tree.checkRemovable id with
  | error refusal =>
      rw [removable] at run
      cases run
      exact ⟨[], _, limiter, rfl, rfl, .refl limiter⟩
  | ok kind =>
      rw [removable] at run
      rw [Tree.leavesOf_eq (Tree.checkRemovable_eq_ok.1 removable).1]
      rcases Action.bind_eq_error.1 run with cascade | ⟨_, between, cascade, rest⟩
      · rcases Action.forEach_eq_error cascade with ⟨done, leaf, others, between, leaves_eq, deleted,
          failed⟩
        refine ⟨done, leaf :: others, between, leaves_eq, deleted, ?_⟩
        exact (inLine.of_forEach deleted).unchanged_of_deleteSla failed
      · refine ⟨_, [], between, (List.append_nil _).symm, cascade, ?_⟩
        have between_inLine := inLine.of_forEach cascade
        rcases Action.bind_eq_error.1 rest with own | ⟨_, bare, own, removing⟩
        · exact between_inLine.unchanged_of_deleteSlaIfAny own
        · exact absurd removing (removeNode_ne_error between_inLine.formed own kind _)

end InLine

/-- A removal that fails has deleted the agreements of the first leaves, maybe of none, and has changed
nothing else; so it has changed nothing exactly if it has deleted none. -/
theorem cascades_stop_part_way {profile : Profile} {config : DeviceConfig}
    (reached : Reachable profile config LinksClear LinksStay limiter)
    (sound : intact limiter.device) {cause : Error}
    (run : deleteNode id limiter = (.error (.error cause), after)) :
    ∃ withdrawn kept between, limiter.tree.leavesOf id = withdrawn ++ kept ∧
      Action.forEach withdrawn deleteSla limiter = (.ok (), between) ∧ Unchanged between after ∧
      (Unchanged limiter after ↔ withdrawn = []) := by
  have inLine : InLine limiter := ⟨reached.wellFormed, reached.mirrors sound⟩
  rcases inLine.of_deleteNode run with ⟨withdrawn, kept, between, leaves_eq, deleted, still⟩
  refine ⟨withdrawn, kept, between, leaves_eq, deleted, still, ?_⟩
  constructor
  · intro unchanged
    apply List.eq_nil_iff_forall_not_mem.2
    intro leaf mem
    have vacant : between.tree.Vacant leaf :=
      (deletes_of_forEach deleted).vacant inLine.formed (.inl mem)
    rw [← still.tree_eq, unchanged.tree_eq] at vacant
    have among : leaf ∈ limiter.tree.leavesOf id := by simp [leaves_eq, mem]
    exact inLine.formed.not_vacant_of_mem_leavesOf among vacant
  · rintro rfl
    cases deleted
    exact still

end Removal

/-- A limiter on a bench whose second request from now is answered with a refusal. -/
def refusingSecond (limiter : Limiter Bench) : Limiter Bench :=
  { limiter with
    device := { limiter.device with faults := [(limiter.device.sent + 2, .status 1)] } }

/-- There is a run in which the first cluster cannot be removed and has lost the agreement of its leaf
all the same: the firmware deletes the leaf's and refuses to delete the cluster's. -/
theorem exists_cascade :
    ∃ limiter after : Limiter Bench, ∃ cause,
      Reachable Profile.gen4 smallConfig LinksClear LinksStay limiter ∧ intact limiter.device ∧
      deleteNode (.ofSlot .cluster 0) limiter = (.error (.error cause), after) ∧
      ¬Unchanged limiter after := by
  have passed : comesUp (fun limiter =>
      let ready := refusingSecond (withFirstLeaf limiter)
      let finished := deleteNode (.ofSlot .cluster 0) ready
      decide (ready.device.pool.nextAddress < 2 ^ 64 ∧
        finished.1 = .error (.error (.admin .delete (.status 1))) ∧
        ready.tree ≠ finished.2.tree)) = true := by
    decide +kernel
  rcases exists_start passed with ⟨tree, bench, up, result⟩
  simp only [decide_eq_true_eq] at result
  rcases result with ⟨room, refused, different⟩
  have clean : LinksClear Bench.fresh := fun _ _ _ => rfl
  have stay : LinksStay (withFirstLeaf ⟨tree, bench⟩).device
      (refusingSecond (withFirstLeaf ⟨tree, bench⟩)).device := ⟨fun _ _ _ => rfl, id⟩
  refine ⟨refusingSecond (withFirstLeaf ⟨tree, bench⟩), _, _, ?_, room, Prod.ext refused rfl, ?_⟩
  · exact .moved (.performed (.createSla firstLeaf) (.started clean up)) stay
  · intro unchanged
    exact different unchanged.tree_eq.symm

theorem cascades_stop_part_way_on_bench :
    ∃ limiter after between : Limiter Bench, ∃ leaf withdrawn kept,
      Reachable Profile.gen4 smallConfig LinksClear LinksStay limiter ∧
      limiter.tree.leavesOf (.ofSlot .cluster 0) = leaf :: withdrawn ++ kept ∧
      Action.forEach (leaf :: withdrawn) deleteSla limiter = (.ok (), between) ∧
      Unchanged between after := by
  rcases exists_cascade with ⟨limiter, after, cause, reached, room, run, changed⟩
  rcases cascades_stop_part_way reached room run with
    ⟨withdrawn, kept, between, leaves_eq, deleted, still, unchanged_iff⟩
  cases withdrawn with
  | nil => exact absurd (unchanged_iff.2 rfl) changed
  | cons leaf rest =>
      exact ⟨limiter, after, between, leaf, rest, kept, reached, leaves_eq, deleted, still⟩

/-- Removing a node is not all or nothing. -/
theorem not_all_or_nothing :
    ¬∀ limiter after : Limiter Bench, ∀ id cause,
      Reachable Profile.gen4 smallConfig LinksClear LinksStay limiter → intact limiter.device →
      deleteNode id limiter = (.error (.error cause), after) → Unchanged limiter after := by
  intro always
  rcases exists_cascade with ⟨limiter, after, cause, reached, room, run, changed⟩
  exact changed (always limiter after _ cause reached room run)

end Limiter

end RateTree
