import RateTree.Proofs.Invariant
import RateTree.Proofs.Owners

/-!
# What changes of a tree leave alone

Committing an agreement gives one node another content and settles its committed rate with the parents
that it has before and after; nothing else changes. A parent is of the service of its children, so a
commit to a node of one service leaves every node of the other services alone.
-/

namespace RateTree

namespace Tree

variable {tree after last : Tree} {id other : NodeId} {service : Service}

/-- Whether a node is there and has another one as its parent. -/
def HangsBelow (tree : Tree) (id above : NodeId) : Prop :=
  ∃ node, tree.nodes.find? id = some node ∧ node.parent = some above

/-- A node has changed, and what remains of the budgets of its parents before and after, and nothing
else. -/
structure ChangesOnly (tree after : Tree) (id : NodeId) : Prop where
  target : ∃ old new, tree.nodes.find? id = some old ∧ after.nodes.find? id = some new ∧
    new.service = old.service
  absent : ∀ other, other ≠ id → tree.nodes.find? other = none → after.nodes.find? other = none
  others : ∀ other node, other ≠ id → tree.nodes.find? other = some node →
    ∃ remaining, after.nodes.find? other = some { node with remaining } ∧
      (remaining = node.remaining ∨ tree.HangsBelow id other ∨ after.HangsBelow id other)

/-- What remains of another budget changes only if the node holds something of it before or after. -/
theorem changesOnly_of_rebound {old new : Node} {remainder : NodeId → Node → Nat}
    (rebound : tree.nodes.Rebound after.nodes id old new remainder)
    (service_eq : new.service = old.service)
    (settled : ∀ other node, tree.nodes.find? other = some node →
      remainder other node + new.shareUnder other = node.remaining + old.shareUnder other) :
    tree.ChangesOnly after id where
  target := ⟨old, new, rebound.was, rebound.is, service_eq⟩
  absent other different missing := by
    rw [rebound.found, if_neg different, missing, Option.map_none]
  others other node different found := by
    refine ⟨remainder other node, rebound.find?_other different found, ?_⟩
    by_cases was_under : old.parent = some other
    · exact .inr (.inl ⟨old, rebound.was, was_under⟩)
    · by_cases is_under : new.parent = some other
      · exact .inr (.inr ⟨new, rebound.is, is_under⟩)
      · have balance := settled other node found
        rw [Node.shareUnder_of_ne was_under, Node.shareUnder_of_ne is_under] at balance
        exact .inl balance

theorem WellFormed.changesOnly_commitCreate (sound : tree.WellFormed) {request : Sla}
    {plan : CreatePlan} (planned : tree.planCreate request = .ok plan) :
    tree.ChangesOnly (tree.commitCreate plan) request.node := by
  rcases planCreate_accepted planned with ⟨node, accepted⟩
  rcases accepted.rebound sound with ⟨remainder, rebound, settled⟩
  apply changesOnly_of_rebound rebound rfl
  intro other current found
  rw [settled other current found, Node.shareUnder_of_vacant accepted.vacant, Nat.add_zero]

theorem WellFormed.changesOnly_commitUpdate (sound : tree.WellFormed) {request : Sla}
    {plan : UpdatePlan} (planned : tree.planUpdate request = .ok plan) :
    tree.ChangesOnly (tree.commitUpdate plan) request.id := by
  rcases planUpdate_accepted planned with ⟨node, accepted⟩
  rcases accepted.rebound sound with ⟨remainder, rebound, settled⟩
  rw [← accepted.id_eq]
  exact changesOnly_of_rebound rebound rfl settled

theorem WellFormed.changesOnly_commitDelete (sound : tree.WellFormed) {plan : DeletePlan}
    (planned : tree.planDelete id = .ok plan) : tree.ChangesOnly (tree.commitDelete plan) id := by
  rcases planDelete_accepted planned with ⟨node, accepted⟩
  rcases accepted.rebound sound with ⟨remainder, rebound, settled⟩
  apply changesOnly_of_rebound rebound rfl
  intro other current found
  have gone : node.unbind.shareUnder other = 0 := Node.shareUnder_of_vacant rfl other
  rw [settled other current found, gone, Nat.add_zero]

/-! ## The nodes of other services -/

/-- Whether an identifier names no node of another service. -/
def OfService (tree : Tree) (service : Service) (id : NodeId) : Prop :=
  ∀ node, tree.nodes.find? id = some node → node.service = service

/-- The nodes of other services are the same as before. -/
structure KeepsOthers (service : Service) (tree after : Tree) : Prop where
  constants : tree.SameConstants after
  nodes : ∀ id node, node.service ≠ service →
    (after.nodes.find? id = some node ↔ tree.nodes.find? id = some node)

namespace KeepsOthers

theorem refl (service : Service) (tree : Tree) : KeepsOthers service tree tree :=
  ⟨⟨rfl, rfl⟩, fun _ _ _ => Iff.rfl⟩

theorem trans (first : KeepsOthers service tree after) (second : KeepsOthers service after last) :
    KeepsOthers service tree last where
  constants := ⟨second.constants.1.trans first.constants.1, second.constants.2.trans first.constants.2⟩
  nodes id node different := (second.nodes id node different).trans (first.nodes id node different)

/-- No node of another service turns up where there was none. -/
theorem ofService (keeps : KeepsOthers service tree after) (own : tree.OfService service id) :
    after.OfService service id := by
  intro node found
  by_contra different
  exact different (own node ((keeps.nodes id node different).1 found))

theorem owns (keeps : KeepsOthers service tree after) {node : Node} {sla : Sla} {rings : List Nat}
    (found : tree.nodes.find? id = some node) (different : node.service ≠ service)
    (owns : tree.Owns id sla rings) : after.Owns id sla rings := by
  rcases owns with ⟨held, located, bound, carried, known⟩
  rw [found, Option.some.injEq] at located
  subst located
  refine ⟨node, (keeps.nodes id node different).2 found, bound, carried, ?_⟩
  rw [ringsOf_congr keeps.constants.2]
  exact known

end KeepsOthers

namespace WellFormed

theorem service_eq_of_hangsBelow (sound : tree.WellFormed) {node above : Node}
    (found : tree.nodes.find? id = some node) (found_above : tree.nodes.find? other = some above)
    (below : tree.HangsBelow id other) : above.service = node.service := by
  rcases below with ⟨held, located, under⟩
  rw [found, Option.some.injEq] at located
  subst located
  have bound : node.configured = true := by
    by_contra free
    rw [sound.vacant id node found (by simpa using free)] at under
    contradiction
  have place := sound.parents id node found bound
  simp only [ParentInPlace] at place
  split at place
  · rw [under] at place
    contradiction
  · rcases place with ⟨parent, parentNode, named, there, -, -, same⟩
    rw [under, Option.some.injEq] at named
    subst named
    rw [found_above, Option.some.injEq] at there
    rw [there, same]

/-- The leaves whose agreements go with a node are of the node's service. -/
theorem ofService_of_mem_leavesBelow (sound : tree.WellFormed) (own : tree.OfService service id)
    {kind : NodeKind} {leaf : NodeId} (mem : leaf ∈ tree.leavesBelow id kind) :
    tree.OfService service leaf := by
  intro node found
  cases kind with
  | root | leaf => simp [leavesBelow] at mem
  | cluster =>
      simp only [leavesBelow, NodeStore.configuredChildren, List.mem_map, List.mem_filter,
        Bool.and_eq_true, beq_iff_eq] at mem
      rcases mem with ⟨held, ⟨held_mem, bound, under⟩, rfl⟩
      rcases sound.find?_of_mem_nodes held_mem with ⟨located, -⟩
      rw [found, Option.some.injEq] at located
      subst located
      rcases sound.exists_parent found bound under with ⟨-, parent, there, -⟩
      rw [← sound.service_eq_of_hangsBelow found there ⟨node, found, under⟩]
      exact own parent there

/-- A change to a node of a service leaves the nodes of the other services alone, since the parents of
the node are of its service. -/
theorem keepsOthers (sound : tree.WellFormed) (sound_after : after.WellFormed)
    (changes : tree.ChangesOnly after id) (constants : tree.SameConstants after)
    (own : tree.OfService service id) : KeepsOthers service tree after := by
  rcases changes.target with ⟨old, new, was, is, service_eq⟩
  have old_service : old.service = service := own old was
  have kept : ∀ other node, node.service ≠ service → tree.nodes.find? other = some node →
      after.nodes.find? other = some node := by
    intro other node different found
    have apart : other ≠ id := by
      rintro rfl
      exact different (own node found)
    rcases changes.others other node apart found with ⟨remaining, found_after, same | was_below |
      is_below⟩
    · rw [found_after, same]
    · have same := sound.service_eq_of_hangsBelow was found was_below
      exact absurd (same.trans old_service) different
    · have same := sound_after.service_eq_of_hangsBelow is found_after is_below
      exact absurd (same.trans (service_eq.trans old_service)) different
  refine ⟨constants, ?_⟩
  intro other node different
  refine ⟨?_, kept other node different⟩
  intro found_after
  have apart : other ≠ id := by
    rintro rfl
    rw [is, Option.some.injEq] at found_after
    exact different (by rw [← found_after, service_eq, old_service])
  cases found : tree.nodes.find? other with
  | none =>
      rw [changes.absent other apart found] at found_after
      contradiction
  | some held =>
      rcases changes.others other held apart found with ⟨remaining, changed, -⟩
      have same_service : node.service = held.service := by
        rw [changed, Option.some.injEq] at found_after
        rw [← found_after]
      rw [same_service] at different
      rw [← found_after, kept other held different found]

theorem keepsOthers_commitCreate (sound : tree.WellFormed) {request : Sla} {plan : CreatePlan}
    (planned : tree.planCreate request = .ok plan) (own : tree.OfService service request.node) :
    KeepsOthers service tree (tree.commitCreate plan) :=
  sound.keepsOthers (sound.commitCreate planned) (sound.changesOnly_commitCreate planned) ⟨rfl, rfl⟩ own

theorem keepsOthers_commitUpdate (sound : tree.WellFormed) {request : Sla} {plan : UpdatePlan}
    (planned : tree.planUpdate request = .ok plan) (own : tree.OfService service request.id) :
    KeepsOthers service tree (tree.commitUpdate plan) :=
  sound.keepsOthers (sound.commitUpdate planned) (sound.changesOnly_commitUpdate planned) ⟨rfl, rfl⟩ own

theorem keepsOthers_commitDelete (sound : tree.WellFormed) {plan : DeletePlan}
    (planned : tree.planDelete id = .ok plan) (own : tree.OfService service id) :
    KeepsOthers service tree (tree.commitDelete plan) :=
  sound.keepsOthers (sound.commitDelete planned) (sound.changesOnly_commitDelete planned) ⟨rfl, rfl⟩ own

end WellFormed

theorem keepsOthers_removeNode {kind : NodeKind} (removed : tree.removeNode id kind = .ok after)
    (own : tree.OfService service id) : KeepsOthers service tree after := by
  rcases removeNode_eq_ok removed with ⟨node, level, found, refilled, after_eq⟩
  refine ⟨by rw [after_eq]; exact ⟨rfl, rfl⟩, ?_⟩
  intro other held different
  rw [refilled.found]
  split
  · next same =>
    subst same
    simp only [reduceCtorEq, false_iff]
    intro located
    exact different (own held located)
  · rfl

end Tree

end RateTree
