import RateTree.Proofs.Recreation

/-!
# Deleting what was created

A new agreement that is deleted at once leaves no trace. The rate that its parent set aside comes back in
full, since a remainder is determined by what the children hold, and the node is as fresh as it was. The
tree is therefore the same again, and the link tables and the entries of the firmware are, because they
are determined by the tree.
-/

namespace RateTree

/-- Link tables that mirror the same tree are the same. -/
theorem Mirrors.sameLinks {δ : Type} [DeviceView δ] {tree : Tree} {device other : δ}
    (mirrors : Mirrors tree device) (also : Mirrors tree other) : SameLinks device other := by
  apply mirrors.points.sameLinks also.points
  intro table index inside unowned
  rw [mirrors.free table index inside unowned, also.free table index inside unowned]

namespace Tree

variable {tree : Tree} {request : Sla} {plan : CreatePlan} {node : Node}

/-- Taking a new agreement away from a fresh node leaves it as it was. -/
theorem unbind_bind (fresh : node = Node.fresh node.id node.kind node.service) (sla : Sla)
    (parent : Option NodeId) : (node.bind sla parent).unbind = node := by
  rw [fresh]
  rfl

/-- No configured node hangs below one that was vacant until now. -/
theorem CreatePlan.Accepted.childless (accepted : plan.Accepted tree request node)
    (sound : tree.WellFormed) (committed : (tree.commitCreate plan).WellFormed) (other : NodeId)
    (child : Node) (found : (tree.commitCreate plan).nodes.find? other = some child)
    (bound : child.configured = true) : child.parent ≠ some request.node := by
  rcases accepted.rebound sound with ⟨remainder, rebound, -⟩
  rcases rebound.eq_or_before found with ⟨rfl, -⟩ | ⟨different, before, was, rfl⟩
  · intro own
    exact (committed.exists_parent found bound own).1 rfl
  · exact sound.childless_of_vacant accepted.found accepted.vacant other before was bound

/-- A new agreement can be deleted, which gives the tree from before. -/
theorem WellFormed.exists_deletion (sound : tree.WellFormed)
    (planned : tree.planCreate request = .ok plan) :
    ∃ gone, (tree.commitCreate plan).planDelete request.node = .ok gone ∧
      (tree.commitCreate plan).commitDelete gone = tree := by
  rcases planCreate_accepted planned with ⟨node, accepted⟩
  have committed := sound.commitCreate planned
  rcases accepted.rebound sound with ⟨created, create_rebound, create_settled⟩
  rcases committed.exists_planDelete create_rebound.is rfl (accepted.childless sound committed) with
    ⟨gone, deletes⟩
  rcases planDelete_accepted deletes with ⟨bound, delete⟩
  obtain rfl : bound = node.bind plan.sla plan.sla.parent :=
    Option.some.inj (delete.found.symm.trans create_rebound.is)
  rcases delete.rebound committed with ⟨deleted, delete_rebound, delete_settled⟩
  refine ⟨gone, deletes, ?_⟩
  refine (committed.commitDelete deletes).eq_of_find? sound rfl rfl rfl ?_
  intro other
  rw [delete_rebound.found]
  split
  · next same =>
    rw [same, unbind_bind (sound.vacant _ node accepted.found accepted.vacant), accepted.found]
  · next different =>
    cases found : tree.nodes.find? other with
    | none => simp [create_rebound.found, different, found]
    | some held =>
        -- What the parent gets back is what it had set aside.
        have between := create_rebound.find?_other different found
        have set_aside := create_settled other held found
        have given_back := delete_settled other _ between
        have same : deleted other { held with remaining := created other held } = held.remaining :=
          given_back.trans set_aside
        rw [between, Option.map_some, same]

end Tree

namespace Limiter

open Bench (Direct Ready Serves)

/-- Deletion undoes creation: in every run on a bench that answers, whose link tables were clear at first,
a new agreement can be deleted at once, and then the tree with its counters, the link tables and the
entries of the firmware are as they were before it. -/
theorem deletion_undoes_creation {profile : Profile} {config : DeviceConfig}
    {limiter after : Limiter Bench} {request : Sla} {id : NodeId}
    (reached : Reachable profile config (fun bench => Direct bench ∧ LinksClear bench) Injects limiter)
    (ready : Ready limiter.device) (room : limiter.device.pool.nextAddress + pageSize < 2 ^ 64)
    (created : createSla request limiter = (.ok id, after)) :
    ∃ restored, deleteSla id after = (.ok (), restored) ∧ Alike limiter restored := by
  have sound := reached.wellFormed
  have agrees := (reached.mono (fun _ clean => clean.1) fun _ _ move => move).agrees_always
  have mirrors := (reached.mono (fun _ clean => clean.2) fun _ _ => Injects.linksStay).mirrors ready.room
  rcases limiter with ⟨tree, bench⟩
  have serves : bench.Serves 1 :=
    { toAttentive := ready.serves.toAttentive, room := by simpa using room }
  rcases planned_of_succeeds (congrArg Prod.fst created) with ⟨plan, planned⟩
  rcases sound.exists_deletion planned with ⟨gone, deletes, tree_eq⟩
  have committed := sound.commitCreate planned
  rcases createSla_of_serves sound serves agrees planned with
    ⟨between, made, linking, follows, agrees_between⟩
  rcases deleteSla_of_serves committed (follows.serves serves) agrees_between deletes with
    ⟨last, deleted, unlinking, -, agrees_last⟩
  rw [made] at created
  cases created
  have mirrors_between :=
    ((lasting_mirrors.create tree request plan bench sound planned).of_ok linking).2 mirrors
  have mirrors_last := ((lasting_mirrors.delete _ _ gone between committed deletes).of_ok unlinking).2
    mirrors_between
  rw [tree_eq] at deleted mirrors_last agrees_last
  exact ⟨_, deleted, rfl, mirrors.sameLinks mirrors_last,
    agrees.described.lookup_eq agrees_last.described⟩

/-- In a run on a bench, the first leaf is made and deleted again. -/
theorem deletion_undoes_creation_on_bench :
    ∃ limiter after restored : Limiter Bench, ∃ id,
      Reachable Profile.gen4 smallConfig (fun bench => Direct bench ∧ LinksClear bench) Injects
        limiter ∧
      createSla firstLeaf limiter = (.ok id, after) ∧ after.tree ≠ limiter.tree ∧
      deleteSla id after = (.ok (), restored) ∧ Alike limiter restored := by
  have passed : comesUp (fun limiter =>
      decide (Ready limiter.device ∧ limiter.device.pool.nextAddress + pageSize < 2 ^ 64 ∧
        (createSla firstLeaf limiter).1 = .ok firstLeaf.node ∧
        (createSla firstLeaf limiter).2.tree ≠ limiter.tree)) = true := by
    decide +kernel
  rcases exists_start passed with ⟨tree, bench, up, result⟩
  rcases of_decide_eq_true result with ⟨ready, room, made, different⟩
  have clean : Direct Bench.fresh ∧ LinksClear Bench.fresh := ⟨⟨rfl, rfl, rfl⟩, fun _ _ _ => rfl⟩
  have reached : Reachable Profile.gen4 smallConfig (fun bench => Direct bench ∧ LinksClear bench)
      Injects ⟨tree, bench⟩ := .started clean up
  have created : createSla firstLeaf ⟨tree, bench⟩ =
      (.ok firstLeaf.node, (createSla firstLeaf ⟨tree, bench⟩).2) := Prod.ext made rfl
  rcases deletion_undoes_creation reached ready room created with ⟨restored, deleted, alike⟩
  exact ⟨_, _, restored, _, reached, created, different, deleted, alike⟩

end Limiter

end RateTree
