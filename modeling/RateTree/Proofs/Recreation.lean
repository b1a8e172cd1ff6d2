import RateTree.Proofs.Admission
import RateTree.Proofs.Cascade

/-!
# Updating and recreating

Changing the agreement of a node without children comes to the same as deleting it and asking for it
anew: on a bench that answers, one way succeeds exactly if the other does, and both end with the same
tree, the same link tables and the same entries of the firmware. An update settles the budgets within
one posting, the other way gives the whole rate back first; the trees are the same because a node's
remainder is determined by what its children hold.
-/

namespace RateTree

open LinkTable (Belongs)

/-- The request for a new agreement in place of a present one: at other rates, and under the parent that
is named or else the present one. -/
def Sla.renewal (current request : Sla) : Sla :=
  { current with cir := request.cir, pir := request.pir, parent := request.parent.or current.parent }

theorem PerKind.eq_of_get {α : Type} {table other : PerKind α}
    (same : ∀ kind, table.get kind = other.get kind) : table = other := by
  rcases table with ⟨root, cluster, leaf⟩
  rcases other with ⟨otherRoot, otherCluster, otherLeaf⟩
  have root_eq : root = otherRoot := same .root
  have cluster_eq : cluster = otherCluster := same .cluster
  have leaf_eq : leaf = otherLeaf := same .leaf
  rw [root_eq, cluster_eq, leaf_eq]

namespace NodeStore

/-- Stores with as many slots that hold the same nodes are the same. -/
theorem eq_of_find? {store other : NodeStore}
    (sized : ∀ kind, (store.slots.get kind).length = kind.capacity)
    (other_sized : ∀ kind, (other.slots.get kind).length = kind.capacity)
    (same : ∀ id, store.find? id = other.find? id) : store = other := by
  have slots_eq : store.slots = other.slots := by
    apply PerKind.eq_of_get
    intro kind
    apply List.ext_getElem ((sized kind).trans (other_sized kind).symm)
    intro index inside there
    have small : index < 256 := (sized kind ▸ inside).trans_le kind.capacity_le
    have held := same (NodeId.ofSlot kind index)
    rw [find?_ofSlot kind small, find?_ofSlot kind small] at held
    simpa [slot, List.getElem?_eq_getElem inside, List.getElem?_eq_getElem there] using held
  exact congrArg NodeStore.mk slots_eq

end NodeStore

namespace Tree

variable {tree next : Tree} {id above : NodeId} {node : Node} {request current : Sla}

theorem WellFormed.census_eq (sound : tree.WellFormed) (also : next.WellFormed)
    (nodes_eq : tree.nodes = next.nodes) : tree.census = next.census := by
  have also_counts := also.counted
  rw [← nodes_eq] at also_counts
  have nodes : tree.census.nodes = next.census.nodes :=
    PerKind.eq_of_get fun kind => (sound.counted kind).1.trans (also_counts kind).1.symm
  have slas : tree.census.slas = next.census.slas :=
    PerKind.eq_of_get fun kind => (sound.counted kind).2.trans (also_counts kind).2.symm
  calc tree.census
      = ⟨tree.census.nodes, tree.census.slas⟩ := rfl
    _ = ⟨next.census.nodes, next.census.slas⟩ := by rw [nodes, slas]
    _ = next.census := rfl

/-- Well-formed trees with the same constants, roots and nodes are the same. -/
theorem WellFormed.eq_of_find? (sound : tree.WellFormed) (also : next.WellFormed)
    (profile_eq : tree.profile = next.profile) (config_eq : tree.config = next.config)
    (roots_eq : tree.roots = next.roots)
    (same : ∀ id, tree.nodes.find? id = next.nodes.find? id) : tree = next := by
  have nodes_eq := NodeStore.eq_of_find? sound.sized also.sized same
  have census_eq := sound.census_eq also nodes_eq
  rcases tree with ⟨profile, config, nodes, roots, census⟩
  simp only at profile_eq config_eq nodes_eq roots_eq census_eq
  rw [profile_eq, config_eq, nodes_eq, roots_eq, census_eq]

theorem WellFormed.root_of_cluster (sound : tree.WellFormed)
    (found : tree.nodes.find? id = some node) (bound : node.configured = true)
    (cluster : node.kind = .cluster) :
    ∃ root, node.parent = some root ∧ tree.roots.id? node.service = some root := by
  have place := sound.parents id node found bound
  simp only [ParentInPlace, cluster, NodeKind.parent?] at place
  rcases place with ⟨root, parent, under, located, -, kind, serves⟩
  have registered := sound.registered root parent located kind
  rw [serves] at registered
  exact ⟨root, under, registered⟩

/-! ## The condition -/

section Condition

variable {plan : DeletePlan}

namespace DeletePlan.Accepted

theorem childrenShare (accepted : plan.Accepted tree id node) (sound : tree.WellFormed) :
    (tree.commitDelete plan).nodes.childrenShare above = tree.nodes.othersShare above id := by
  rcases accepted.rebound sound with ⟨remainder, rebound, -⟩
  have given := rebound.childrenShare above
  have others := sound.othersShare_add accepted.found above
  have nothing : node.unbind.shareUnder above = 0 := Node.shareUnder_of_vacant rfl above
  omega

/-- A deletion leaves what the condition asks of other nodes as it was. -/
theorem hasRoom_iff (accepted : plan.Accepted tree id node) (sound : tree.WellFormed)
    (different : above ≠ id) {service : Service} {held cir pir : Nat} :
    (tree.commitDelete plan).HasRoom above service held cir pir ↔
      tree.HasRoom above service held cir pir := by
  rcases accepted.rebound sound with ⟨remainder, rebound, -⟩
  exact hasRoom_iff_of_rebound rebound different

/-- The node of a deleted agreement can be asked for anew. -/
theorem asks (accepted : plan.Accepted tree id node) (sound : tree.WellFormed) (request : Sla) :
    (tree.commitDelete plan).Asks (plan.sla.renewal request) := by
  rcases accepted.rebound sound with ⟨remainder, rebound, -⟩
  have carries := sound.carries_of_sla accepted.found accepted.sla_eq
  have id_eq := (sound.placed id node accepted.found).1
  refine ⟨⟨node.unbind, ?_, rfl, carries.kind_eq.symm, carries.service_eq.symm⟩, ?_⟩
  · have node_eq : (plan.sla.renewal request).node = id := carries.node_eq.trans id_eq
    rw [node_eq]
    exact rebound.is
  · intro leaf
    have rings := accepted.rings
    have level : plan.sla.kind = .leaf := leaf
    simp only [ringsOf, level, DeviceConfig.ringsFor, Outcome.bind_eq_ok, Outcome.liftError_eq_ok]
      at rings
    rcases rings with ⟨vf, checked, -⟩
    exact ⟨vf, checked⟩

/-- Where the node comes under again is where an update leaves it. -/
theorem comesUnder_iff (accepted : plan.Accepted tree id node) (sound : tree.WellFormed)
    (named : request.parent = none ∨ node.kind = .leaf) :
    (tree.commitDelete plan).ComesUnder (plan.sla.renewal request) above ↔
      StaysUnder node request above := by
  have carries := sound.carries_of_sla accepted.found accepted.sla_eq
  have kind_eq : (plan.sla.renewal request).kind = node.kind := carries.kind_eq
  have parent_eq : (plan.sla.renewal request).parent = request.parent.or node.parent := by
    rw [← carries.parent_eq]
    rfl
  simp only [ComesUnder, StaysUnder, kind_eq]
  cases level : node.kind with
  | root => rfl
  | cluster =>
      rcases sound.root_of_cluster accepted.found accepted.bound level with ⟨root, under, registered⟩
      have service_eq : (plan.sla.renewal request).service = node.service := carries.service_eq
      have unnamed : request.parent = none := by simpa [level] using named
      change tree.roots.id? (plan.sla.renewal request).service = some above ↔ _
      rw [service_eq, registered, under, unnamed]
      simp
  | leaf => rw [parent_eq]

/-- An update is admitted exactly if the agreement can be made anew once it is gone. -/
theorem admits_iff (accepted : plan.Accepted tree id node) (sound : tree.WellFormed)
    (own : request.id = id) (named : request.parent = none ∨ node.kind = .leaf) :
    (tree.commitDelete plan).Admits (plan.sla.renewal request) ↔ tree.AdmitsUpdate node request := by
  have carries := sound.carries_of_sla accepted.found accepted.sla_eq
  have kind_eq : (plan.sla.renewal request).kind = node.kind := carries.kind_eq
  have service_eq : (plan.sla.renewal request).service = node.service := carries.service_eq
  have elsewhere {above : NodeId} (under : StaysUnder node request above) : above ≠ id := by
    rintro rfl
    have known := (sound.placed _ node accepted.found).2
    cases level : node.kind with
    | root => simp only [StaysUnder, level] at under
    | cluster =>
        simp only [StaysUnder, level] at under
        exact (sound.exists_parent accepted.found accepted.bound under.1).1 rfl
    | leaf =>
        simp only [StaysUnder, level] at under
        rw [(NodeId.inRange_iff.1 under.2).1, level, Option.some.injEq] at known
        contradiction
  have room_iff {above : NodeId} (under : StaysUnder node request above) :
      (tree.commitDelete plan).HasRoom above (plan.sla.renewal request).service
          ((tree.commitDelete plan).nodes.childrenShare above) request.cir request.pir ↔
        tree.HasRoom above node.service (tree.nodes.othersShare above request.id) request.cir
          request.pir := by
    rw [accepted.hasRoom_iff sound (elsewhere under), accepted.childrenShare sound, service_eq, own]
  constructor
  · rintro ⟨⟨cir_le, pir_le, worth⟩, room, -⟩
    rw [service_eq] at cir_le pir_le worth
    refine ⟨⟨cir_le, pir_le, worth⟩, ?_, ?_⟩
    · rw [own, sound.childrenShare_eq_zero fun _ _ => accepted.nothing_below sound]
      exact Nat.zero_le _
    · intro inner
      rcases room (by rw [kind_eq]; exact inner) with ⟨above, comes, has_room⟩
      have under := (accepted.comesUnder_iff sound named).1 comes
      exact ⟨above, under, (room_iff under).1 has_room⟩
  · rintro ⟨⟨cir_le, pir_le, worth⟩, -, room⟩
    rw [← service_eq] at cir_le pir_le worth
    refine ⟨⟨cir_le, pir_le, worth⟩, ?_, ?_⟩
    · intro inner
      rw [kind_eq] at inner
      rcases room inner with ⟨above, under, has_room⟩
      exact ⟨above, (accepted.comesUnder_iff sound named).2 under, (room_iff under).2 has_room⟩
    · intro other leaf sla found _ bound carried
      rcases accepted.rebound sound with ⟨remainder, rebound, -⟩
      rcases rebound.eq_or_before found with ⟨-, rfl⟩ | ⟨different, before, was, rfl⟩
      · cases bound
      · -- The rings of an agreement do not depend on its rates or its parent.
        have apart : tree.RingsApart plan.sla sla :=
          sound.apart id other node before plan.sla sla different.symm accepted.found was
            accepted.sla_eq carried
        exact apart

end DeletePlan.Accepted

end Condition

/-! ## The trees -/

/-- An update and its recreation, planned on the same tree. -/
structure BothPlanned (tree : Tree) (request : Sla) (changed : UpdatePlan) (gone : DeletePlan)
    (fresh : CreatePlan) : Prop where
  updates : tree.planUpdate request = .ok changed
  deletes : tree.planDelete request.id = .ok gone
  creates : (tree.commitDelete gone).planCreate (gone.sla.renewal request) = .ok fresh

namespace BothPlanned

variable {changed : UpdatePlan} {gone : DeletePlan} {fresh : CreatePlan}

/-- The accepted plans are about one node. -/
theorem exists_accepted (both : tree.BothPlanned request changed gone fresh)
    (sound : tree.WellFormed) :
    ∃ node, changed.Accepted tree request node ∧ gone.Accepted tree request.id node ∧
      fresh.Accepted (tree.commitDelete gone) (gone.sla.renewal request) node.unbind ∧
      (gone.sla.renewal request).node = request.id ∧ changed.current = gone.sla := by
  rcases planUpdate_accepted both.updates with ⟨node, update⟩
  rcases planDelete_accepted both.deletes with ⟨same, delete⟩
  rcases planCreate_accepted both.creates with ⟨bare, create⟩
  have found := update.found
  rw [update.id_eq, delete.found, Option.some.injEq] at found
  subst found
  have node_eq : (gone.sla.renewal request).node = request.id :=
    (sound.carries_of_sla delete.found delete.sla_eq).node_eq.trans
      (sound.placed _ same delete.found).1
  rcases delete.rebound sound with ⟨remainder, rebound, -⟩
  have vacated := create.found
  rw [node_eq, rebound.is, Option.some.injEq] at vacated
  subst vacated
  have current_eq := update.current_eq
  rw [delete.sla_eq, Option.some.injEq] at current_eq
  exact ⟨same, update, delete, create, node_eq, current_eq.symm⟩

theorem parent_eq (both : tree.BothPlanned request changed gone fresh) (sound : tree.WellFormed) :
    changed.sla.parent = fresh.sla.parent := by
  rcases both.exists_accepted sound with ⟨node, update, delete, create, -, -⟩
  have carries := sound.carries_of_sla delete.found delete.sla_eq
  rcases parent_of_planUpdate both.updates with ⟨kind, known, changed_parent⟩
  rw [update.known sound, Option.some.injEq] at known
  subst known
  rw [update.oldParent_eq] at changed_parent
  have fresh_parent := create.parent_eq
  have kind_eq : (gone.sla.renewal request).kind = node.kind := carries.kind_eq
  rw [kind_eq] at fresh_parent
  cases level : node.kind with
  | root =>
      have place := sound.parents _ node delete.found delete.bound
      simp only [ParentInPlace, level, NodeKind.parent?] at place
      rw [level] at fresh_parent
      rw [changed_parent, if_neg (by simp [level]), place]
      exact fresh_parent.symm
  | cluster =>
      rcases sound.root_of_cluster delete.found delete.bound level with ⟨root, under, registered⟩
      rw [level] at fresh_parent
      rcases fresh_parent with ⟨other, other_registered, fresh_under⟩
      have service_eq : (gone.sla.renewal request).service = node.service := carries.service_eq
      change tree.roots.id? _ = some other at other_registered
      rw [service_eq, registered] at other_registered
      rw [changed_parent, if_neg (by simp [level]), under, fresh_under, other_registered]
  | leaf =>
      rw [level] at fresh_parent
      rcases fresh_parent with ⟨cluster, named, -, fresh_under⟩
      change request.parent.or gone.sla.parent = some cluster at named
      rw [changed_parent, if_pos level, ← carries.parent_eq, named, fresh_under]

theorem sla_eq (both : tree.BothPlanned request changed gone fresh) (sound : tree.WellFormed) :
    changed.sla = fresh.sla := by
  rcases both.exists_accepted sound with ⟨node, update, delete, create, -, current_eq⟩
  have carries := sound.carries_of_sla delete.found delete.sla_eq
  have id_eq : gone.sla.id = gone.sla.node := carries.id_eq.trans carries.node_eq.symm
  rw [update.sla_eq, create.sla_eq, both.parent_eq sound, current_eq]
  simp only [Sla.under, Sla.atRates, Sla.raisePeak, Sla.renewal, id_eq]

/-- Either way the node ends up with its whole new rate to be promised. -/
theorem node_eq (both : tree.BothPlanned request changed gone fresh) (sound : tree.WellFormed)
    {node : Node} (update : changed.Accepted tree request node)
    (delete : gone.Accepted tree request.id node) :
    changed.renewed node = node.unbind.bind fresh.sla fresh.sla.parent := by
  have nothing := sound.childrenShare_eq_zero fun _ _ => delete.nothing_below sound
  rcases update.covers sound with ⟨balanced, -⟩
  rw [update.id_eq, nothing] at balanced
  have remaining_eq : changed.sla.cir - (changed.current.cir - node.remaining) = changed.sla.cir := by
    omega
  rw [← both.sla_eq sound]
  simp only [UpdatePlan.renewed, Node.rebase, Node.bind, Node.unbind, remaining_eq, update.bound]

theorem tree_eq (both : tree.BothPlanned request changed gone fresh) (sound : tree.WellFormed) :
    tree.commitUpdate changed = (tree.commitDelete gone).commitCreate fresh := by
  rcases both.exists_accepted sound with ⟨node, update, delete, create, place_eq, -⟩
  have withdrawn := sound.commitDelete both.deletes
  have new_eq := both.node_eq sound update delete
  rcases update.rebound sound with ⟨updated, update_rebound, update_settled⟩
  rcases delete.rebound sound with ⟨deleted, delete_rebound, delete_settled⟩
  rcases create.rebound withdrawn with ⟨created, create_rebound, create_settled⟩
  refine (sound.commitUpdate both.updates).eq_of_find? (withdrawn.commitCreate both.creates) rfl rfl rfl
    ?_
  intro other
  rw [update_rebound.found, create_rebound.found, update.id_eq, place_eq, new_eq]
  split
  · rfl
  · -- Another node differs in its remainder only, and that is settled by what its children hold.
    next different =>
    cases found : tree.nodes.find? other with
    | none => simp [delete_rebound.found, different, found]
    | some held =>
        have between := delete_rebound.find?_other different found
        have update_sum := update_settled other held found
        have delete_sum := delete_settled other held found
        have create_sum := create_settled other _ between
        rw [new_eq] at update_sum
        have same : updated other held =
            created other { held with remaining := deleted other held } := by
          change created other _ + _ = deleted other held at create_sum
          omega
        simp [between, same]

theorem rings_eq (both : tree.BothPlanned request changed gone fresh) (sound : tree.WellFormed) :
    gone.rings = changed.rings ∧ fresh.rings = changed.rings := by
  rcases both.exists_accepted sound with ⟨node, update, delete, create, -, current_eq⟩
  have changed_rings := update.rings
  have gone_rings := delete.rings
  have fresh_rings : tree.ringsOf fresh.sla = .ok fresh.rings := create.rings
  rw [← both.sla_eq sound, update.ringsOf_sla, changed_rings, Except.ok.injEq] at fresh_rings
  rw [current_eq, gone_rings, Except.ok.injEq] at changed_rings
  exact ⟨changed_rings, fresh_rings.symm⟩

theorem sameLinks {δ : Type} [DeviceView δ] {device updated between recreated : δ}
    (both : tree.BothPlanned request changed gone fresh) (sound : tree.WellFormed)
    (points : Points tree device) (repointed : Repointed changed device updated)
    (unlinked : Unlinked device between gone.id gone.rings)
    (linked : Linked between recreated fresh.sla.node fresh.sla.parent fresh.rings) :
    SameLinks updated recreated := by
  rcases both.exists_accepted sound with ⟨node, update, delete, create, node_eq, -⟩
  rcases both.rings_eq sound with ⟨gone_rings, fresh_rings⟩
  have gone_id : gone.id = changed.id := delete.id_eq.trans update.id_eq.symm
  have fresh_id : fresh.sla.node = changed.id :=
    (create.sla_node.trans node_eq).trans update.id_eq.symm
  have withdrawn := sound.commitDelete both.deletes
  have one := points.commitUpdate sound both.updates repointed
  have other := (points.commitDelete sound both.deletes unlinked).commitCreate withdrawn both.creates
    linked
  have owns := update.owns_changed sound
  rw [← both.tree_eq sound] at other
  rw [gone_id, gone_rings] at unlinked
  rw [fresh_id, fresh_rings] at linked
  intro table index inside
  -- Where the node is entered, both ways leave its parent; elsewhere neither writes.
  by_cases belongs : Belongs changed.id changed.rings table index
  · exact one.entry_eq other owns belongs
  · rw [repointed.kept inside belongs, linked.kept table index inside belongs,
      unlinked.kept table index inside belongs]

end BothPlanned

/-- Entries that describe the same tree are the same, but for their order. -/
theorem DescribedBy.lookup_eq {entries others : List ((UInt8 × UInt32) × SlaParameters)}
    (described : tree.DescribedBy entries) (also : tree.DescribedBy others) (key : UInt8 × UInt32) :
    entries.lookup key = others.lookup key := by
  have same {id : NodeId} {sla : Sla} {rings : List Nat} (owns : tree.Owns id sla rings) :
      entries.lookup id.entryKey = others.lookup id.entryKey :=
    also.lookup_of_owns described rfl owns owns
  cases entry : entries.lookup key with
  | some parameters =>
      rcases described.free key parameters entry with ⟨id, sla, rings, owns, rfl⟩
      rw [← entry, same owns]
  | none =>
      cases other : others.lookup key with
      | none => rfl
      | some parameters =>
          rcases also.free key parameters other with ⟨id, sla, rings, owns, rfl⟩
          rw [← entry, same owns, other]

end Tree

namespace Limiter

open Bench (Direct Ready Serves Follows)

section Recreate

variable {δ : Type} [RegisterAccess δ] [BlockMemory δ] [AdminTransport δ]

/-- Deletes the agreement of a node and asks for it anew, at the rates and under the parent that a
request for an update names. -/
def recreate (current request : Sla) : Action (Limiter δ) NodeId := do
  deleteSla current.node
  createSla (current.renewal request)

end Recreate

/-- Two limiters have the same tree, and benches with the same link tables and the same entries in the
firmware. -/
structure Alike (one other : Limiter Bench) : Prop where
  tree_eq : one.tree = other.tree
  links : SameLinks one.device other.device
  entries : ∀ key, one.device.firmware.configured.lookup key =
    other.device.firmware.configured.lookup key

variable {tree : Tree} {bench : Bench} {request current : Sla} {node : Node}

/-- A move that makes requests fail leaves the link tables alone. -/
theorem Injects.linksStay {before after : Bench} (injected : Injects before after) :
    LinksStay before after := by
  rcases injected with ⟨failNext, rejectNext, rfl⟩
  exact ⟨fun _ _ _ => rfl, fun still => still⟩

/-- Once the deletion is carried out, recreating comes to asking anew. -/
theorem recreate_of_deleted {limiter between : Limiter Bench} (own : current.node = request.id)
    (deleted : deleteSla request.id limiter = (.ok (), between)) :
    recreate current request limiter = createSla (current.renewal request) between := by
  simp only [recreate, own, Action.bind_apply, deleted]

/-- An update and its recreation that are planned on the same tree end alike. -/
theorem alike_of_bothPlanned {changed : Tree.UpdatePlan} {gone : Tree.DeletePlan}
    {fresh : Tree.CreatePlan} (both : tree.BothPlanned request changed gone fresh)
    (sound : tree.WellFormed) (serves : bench.Serves 1) (agrees : Agrees tree bench)
    (points : Points tree bench) :
    Alike (updateSla request ⟨tree, bench⟩).2 (recreate gone.sla request ⟨tree, bench⟩).2 := by
  rcases both.exists_accepted sound with ⟨node, -, delete, create, -⟩
  have own : gone.sla.node = request.id :=
    (sound.carries_of_sla delete.found delete.sla_eq).node_eq.trans
      (sound.placed _ node delete.found).1
  have withdrawn := sound.commitDelete both.deletes
  rcases updateSla_of_serves sound serves agrees both.updates with
    ⟨updated, update_run, repointing, -, agrees_updated⟩
  rcases deleteSla_of_serves sound serves agrees both.deletes with
    ⟨between, deleted, unlinking, follows, agrees_between⟩
  rcases createSla_of_serves withdrawn (follows.serves serves) agrees_between both.creates with
    ⟨anew, create_run, linking, -, agrees_anew⟩
  have repointed := ((applyUpdate_repoints sound both.updates).of_ok repointing).2
  have unlinked := ((applyDelete_ensures (sound.fits delete.owns)).of_ok unlinking).2
  have fits := (withdrawn.commitCreate both.creates).fits (create.owns withdrawn)
  have linked := ((applyCreate_ensures fits).of_ok linking).2
  have tree_eq := both.tree_eq sound
  rw [recreate_of_deleted own deleted, update_run, create_run]
  refine ⟨tree_eq, both.sameLinks sound points repointed unlinked linked, ?_⟩
  rw [← tree_eq] at agrees_anew
  exact agrees_updated.described.lookup_eq agrees_anew.described

/-- Update and recreation agree: on a bench that answers, after any run, the agreement of a node without
children is changed exactly if it can be deleted and made anew at the new rates and under the parent
that is named, and both ways end alike. -/
theorem update_agrees_with_recreation {profile : Profile} {config : DeviceConfig}
    {limiter : Limiter Bench} (reached : Reachable profile config Direct Injects limiter)
    (ready : Ready limiter.device) (room : limiter.device.pool.nextAddress + pageSize < 2 ^ 64)
    (found : limiter.tree.nodes.find? request.id = some node) (carried : node.sla = some current)
    (childless : ∀ other child, limiter.tree.nodes.find? other = some child →
      child.configured = true → child.parent ≠ some request.id)
    (named : request.parent = none ∨ node.kind = .leaf) :
    ((updateSla request limiter).1 = .ok () ↔
      ∃ id, (recreate current request limiter).1 = .ok id) ∧
    ((updateSla request limiter).1 = .ok () →
      Alike (updateSla request limiter).2 (recreate current request limiter).2) := by
  have sound := reached.wellFormed
  have agrees := reached.agrees_always
  have points := reached.points (fun _ _ => Injects.linksStay) ready.room
  rcases limiter with ⟨tree, bench⟩
  have serves : bench.Serves 1 :=
    { toAttentive := ready.serves.toAttentive, room := by simpa using room }
  have bound := sound.configured_of_sla found carried
  rcases sound.exists_planDelete found bound childless with ⟨gone, deletes⟩
  have delete : gone.Accepted tree request.id node := by
    rcases Tree.planDelete_accepted deletes with ⟨same, delete⟩
    rwa [Option.some.inj (delete.found.symm.trans found)] at delete
  obtain rfl : gone.sla = current := Option.some.inj (delete.sla_eq.symm.trans carried)
  rcases deleteSla_of_serves sound serves agrees deletes with
    ⟨between, deleted, -, follows, agrees_between⟩
  have own : gone.sla.node = request.id :=
    (sound.carries_of_sla found carried).node_eq.trans (sound.placed _ node found).1
  have withdrawn := sound.commitDelete deletes
  have admitted := delete.admits_iff sound rfl named
  have update_iff := updateSla_succeeds_iff sound serves agrees found bound
  have create_iff := createSla_succeeds_iff withdrawn (follows.serves serves) agrees_between
    (delete.asks sound request)
  constructor
  · rw [recreate_of_deleted own deleted, create_iff, update_iff, admitted]
  · intro updates_well
    have admits := update_iff.1 updates_well
    rcases (sound.planUpdate_iff found bound).2 admits with ⟨changed, updates⟩
    rcases (withdrawn.planCreate_iff (delete.asks sound request)).2 (admitted.2 admits) with
      ⟨fresh, creates⟩
    exact alike_of_bothPlanned ⟨updates, deletes, creates⟩ sound serves agrees points

/-- In a run on a bench, the first leaf is given other rates either way. -/
theorem update_agrees_with_recreation_on_bench :
    ∃ limiter : Limiter Bench, ∃ current id,
      Reachable Profile.gen4 smallConfig Direct Injects limiter ∧
      (updateSla (.update firstLeaf.node 3000 4000 none) limiter).1 = .ok () ∧
      (recreate current (.update firstLeaf.node 3000 4000 none) limiter).1 = .ok id ∧
      Alike (updateSla (.update firstLeaf.node 3000 4000 none) limiter).2
        (recreate current (.update firstLeaf.node 3000 4000 none) limiter).2 := by
  have passed : comesUp (fun limiter =>
      let after := withFirstLeaf limiter
      decide (Ready after.device ∧ after.device.pool.nextAddress + pageSize < 2 ^ 64 ∧
        (updateSla (.update firstLeaf.node 3000 4000 none) after).1 = .ok ()) &&
      (after.tree.nodes.find? firstLeaf.node).any fun leaf => leaf.sla.isSome) = true := by
    decide +kernel
  rcases exists_start passed with ⟨tree, bench, up, result⟩
  simp only [Bool.and_eq_true, decide_eq_true_eq, Option.any_eq_true, Option.isSome_iff_exists]
    at result
  rcases result with ⟨⟨ready, room, updated⟩, leaf, found, current, carried⟩
  have direct : Direct Bench.fresh := ⟨rfl, rfl, rfl⟩
  have reached : Reachable Profile.gen4 smallConfig Direct Injects (withFirstLeaf ⟨tree, bench⟩) :=
    .performed (.createSla firstLeaf) (.started direct up)
  have sound := reached.wellFormed
  have level : leaf.kind = .leaf :=
    Option.some.inj ((sound.placed _ leaf found).2.symm.trans rfl)
  have named : (withFirstLeaf ⟨tree, bench⟩).tree.nodes.find?
      (Sla.update firstLeaf.node 3000 4000 none).id = some leaf := found
  have agreed := update_agrees_with_recreation reached ready room named carried
    (sound.childless_of_leaf found level) (.inl rfl)
  rcases agreed.1.1 updated with ⟨id, recreated⟩
  exact ⟨_, current, id, reached, updated, recreated, agreed.2 updated⟩

end Limiter

end RateTree
