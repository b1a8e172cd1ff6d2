import RateTree.Capabilities
import RateTree.Proofs.Reports

/-!
# What bringing a limiter up builds

Nodes are made in the lowest free slot of their level, and nothing is removed while a limiter comes up.
The nodes of a level therefore take its lowest slots, as many as the census counts, and the next node
goes into the slot after them. The roots come first, in the order of the services. Each service then
gets its cluster and as many leaves as the device has functions, so the service at some place in that
order has the root and the cluster with the number of the place, and its leaf for a function is found
by counting. This is the leaf that `setNodeId` names.
-/

namespace RateTree

namespace NodeId

theorem ofSlot_inj {kind other : NodeKind} {index place : Nat} (small : index < 256)
    (place_small : place < 256) :
    ofSlot kind index = ofSlot other place ↔ kind = other ∧ index = place := by
  constructor
  · intro same
    have levels := congrArg NodeId.kind? same
    have indices := congrArg NodeId.index same
    rw [kind?_ofSlot, kind?_ofSlot, Option.some.injEq] at levels
    rw [index_ofSlot kind small, index_ofSlot other place_small] at indices
    exact ⟨levels, indices⟩
  · rintro ⟨rfl, rfl⟩
    rfl

end NodeId

/-! ## Filled levels -/

namespace NodeStore

variable {store after : NodeStore} {id : NodeId} {kind level : NodeKind} {count : Nat}

/-- Whether the nodes of a level take its lowest slots. -/
def Filled (store : NodeStore) (kind : NodeKind) (count : Nat) : Prop :=
  ∀ index < kind.capacity, (store.find? (.ofSlot kind index)).isSome = true ↔ index < count

/-- The next node of a filled level goes into the slot after the others. -/
theorem Filled.allocate (filled : store.Filled kind count)
    (sized : (store.slots.get kind).length = kind.capacity) {service : Service}
    (made : store.allocate kind service = .ok (id, after)) :
    id = .ofSlot kind count ∧ count < kind.capacity := by
  have ended := allocate_allots service sized
  rw [made] at ended
  cases ended with
  | @lowest index _ inside free taken =>
      -- The slot is free and all before it are taken, so it can only be the one that is counted to.
      have not_below : ¬index < count := by
        rw [← filled index inside, free]
        simp
      have not_above : ¬count < index := fun below =>
        Nat.lt_irrefl count ((filled count (below.trans inside)).1 (taken count below))
      have same : index = count := by omega
      subst same
      exact ⟨rfl, inside⟩

theorem Refilled.filled {node : Node}
    (refilled : store.Refilled after (.ofSlot kind count) kind (some node))
    (room : count < kind.capacity) (filled : store.Filled kind count) :
    after.Filled kind (count + 1) := by
  intro index fits
  have small := fits.trans_le kind.capacity_le
  have count_small := room.trans_le kind.capacity_le
  rw [refilled.found]
  split
  · next same =>
    rw [NodeId.ofSlot_inj small count_small] at same
    simp [same.2]
  · next different =>
    rw [NodeId.ofSlot_inj small count_small] at different
    have apart : index ≠ count := fun same => different ⟨rfl, same⟩
    rw [filled index fits]
    omega

theorem Refilled.filled_other {content : Option Node}
    (refilled : store.Refilled after id kind content) (different : level ≠ kind)
    (filled : store.Filled level count) : after.Filled level count := by
  intro index fits
  rw [refilled.found, if_neg, filled index fits]
  rintro rfl
  have known := refilled.known
  rw [NodeId.kind?_ofSlot, Option.some.injEq] at known
  exact different known

theorem Rebound.filled {old new : Node} {remainder : NodeId → Node → Nat}
    (rebound : store.Rebound after id old new remainder) (filled : store.Filled level count) :
    after.Filled level count := by
  intro index fits
  rw [← filled index fits, rebound.found]
  split
  · next same => simp [same, rebound.was]
  · rw [Option.isSome_map]

end NodeStore

/-! ## The order of the roots -/

namespace Roots

variable {roots next : Roots} {services : List Service} {store after : NodeStore}
  {census counts : Census}

theorem extend_keeps (made : roots.extend services (store, census) = (.ok next, (after, counts)))
    {service : Service} {id : NodeId} (known : roots.id? service = some id) :
    next.id? service = some id := by
  induction services generalizing roots store census with
  | nil =>
      cases made
      exact known
  | cons other rest ih =>
      rcases extend_cons_eq_ok made with ⟨new, root, stored, -, later⟩
      apply ih later
      rw [id?_set, if_neg, known]
      rintro rfl
      rw [known] at new
      contradiction

/-- The roots take the slots after those that are there, in the order of the services. -/
theorem Seeded.order (seeded : Seeded roots store census)
    (filled : store.Filled .root (census.nodes.get .root))
    (made : roots.extend services (store, census) = (.ok next, (after, counts))) :
    after.Filled .root (counts.nodes.get .root) ∧
      ∀ place service, services[place]? = some service →
        next.id? service = some (.ofSlot .root (census.nodes.get .root + place)) ∧
          census.nodes.get .root + place < NodeKind.root.capacity := by
  induction services generalizing roots store census with
  | nil =>
      cases made
      exact ⟨filled, by simp⟩
  | cons first rest ih =>
      rcases extend_cons_eq_ok made with ⟨new, root, stored, allocated, others⟩
      rcases filled.allocate (seeded.sized .root) allocated with ⟨rfl, room⟩
      rcases NodeStore.refilled_of_allocate (seeded.sized .root) allocated with ⟨-, refilled⟩
      rcases ih (seeded.push new allocated) (refilled.filled room filled) others with
        ⟨filled_after, later⟩
      refine ⟨filled_after, ?_⟩
      intro place service listed
      cases place with
      | zero =>
          simp only [List.getElem?_cons_zero, Option.some.injEq] at listed
          subst listed
          refine ⟨extend_keeps others ?_, room⟩
          rw [id?_set, if_pos rfl]
          rfl
      | succ place =>
          rw [List.getElem?_cons_succ] at listed
          have found := later place service listed
          rwa [Census.get_addNode, if_pos rfl, Nat.add_assoc, Nat.add_comm 1] at found

/-- Where only roots are, the other levels are empty, and counted so. -/
theorem Seeded.filled_inner (seeded : Seeded roots store census) {kind : NodeKind}
    (inner : kind ≠ .root) :
    store.Filled kind (census.nodes.get kind) ∧ census.nodes.get kind = 0 := by
  have free (index : Nat) : store.find? (.ofSlot kind index) = Option.none := by
    cases found : store.find? (.ofSlot kind index) with
    | none => rfl
    | some node =>
        have level := (seeded.fresh _ node found).1
        rw [NodeId.kind?_ofSlot, Option.some.injEq] at level
        exact absurd level inner
  have uncounted : census.nodes.get kind = 0 := by
    rw [(seeded.counted kind).1, List.length_eq_zero_iff, List.eq_nil_iff_forall_not_mem]
    intro node mem
    rcases NodeStore.mem_nodes.1 mem with ⟨index, held⟩
    have inside := NodeStore.lt_length_of_slot held
    rw [seeded.sized] at inside
    rw [← NodeStore.find?_ofSlot kind (inside.trans_le kind.capacity_le), free] at held
    cases held
  refine ⟨?_, uncounted⟩
  intro index _
  simp [free, uncounted]

theorem Seeded.filled_empty : NodeStore.empty.Filled .root 0 := by
  intro index _
  cases found : NodeStore.empty.find? (.ofSlot .root index) with
  | none => simp
  | some node =>
      have registered := (Seeded.empty.fresh _ node found).2.2
      simp [id?, none] at registered

end Roots

namespace Tree

variable {tree after last : Tree} {id other : NodeId} {kind : NodeKind} {service : Service}

/-- Whether the service at each place of the configuration has the root with the number of the place. -/
def RootsInOrder (tree : Tree) : Prop :=
  ∀ place service, tree.config.services[place]? = some service →
    tree.roots.id? service = some (.ofSlot .root place) ∧ place < NodeKind.root.capacity

theorem RootsInOrder.toList_eq (ordered : tree.RootsInOrder) (sound : tree.WellFormed) :
    tree.roots.toList =
      tree.config.services.zipIdx.map fun entry => (entry.1, .ofSlot .root entry.2) := by
  let below : Service × NodeId → Service × NodeId → Prop := fun first second =>
    first.2.raw < second.2.raw
  have irrefl : Std.Irrefl below := ⟨fun entry => Nat.lt_irrefl entry.2.raw⟩
  have antisymm : Std.Antisymm below :=
    ⟨fun first second forth back => absurd back (Nat.lt_asymm forth)⟩
  have increasing : (tree.config.services.zipIdx.map fun entry =>
      (entry.1, NodeId.ofSlot .root entry.2)).Pairwise below := by
    rw [List.pairwise_map, List.pairwise_iff_getElem]
    intro first second first_lt second_lt earlier
    rw [List.length_zipIdx] at second_lt
    have room := (ordered second _ (List.getElem?_eq_getElem second_lt)).2
    simp only [List.getElem_zipIdx, below, NodeId.ofSlot, NodeId.pack, NodeKind.tag,
      NodeKind.capacity] at room ⊢
    omega
  -- Both lists go up in the identifiers of the roots, so the same members make them equal.
  apply List.Pairwise.eq_of_mem_iff sound.sorted_roots increasing
  rintro ⟨service, root⟩
  simp only [Roots.mem_toList, List.mem_map, Prod.exists, List.mk_mem_zipIdx_iff_getElem?,
    Prod.mk.injEq]
  constructor
  · intro known
    have enabled := (sound.enabled service).1 (by rw [known]; rfl)
    rcases List.getElem?_of_mem enabled with ⟨place, listed⟩
    have registered := (ordered place service listed).1
    rw [known, Option.some.injEq] at registered
    exact ⟨service, place, listed, rfl, registered.symm⟩
  · rintro ⟨_, place, listed, rfl, rfl⟩
    exact (ordered place _ listed).1

/-! ## Growing trees -/

/-- What was there is there still, of the same level and service, and has kept its agreement. -/
structure Grows (tree after : Tree) : Prop where
  constants : tree.SameConstants after
  roots : after.roots = tree.roots
  nodes : ∀ id node, tree.nodes.find? id = some node →
    ∃ held, after.nodes.find? id = some held ∧ held.kind = node.kind ∧ held.service = node.service
  owns : ∀ id sla rings, tree.Owns id sla rings → after.Owns id sla rings

namespace Grows

theorem refl (tree : Tree) : tree.Grows tree :=
  ⟨⟨rfl, rfl⟩, rfl, fun _ node found => ⟨node, found, rfl, rfl⟩, fun _ _ _ owns => owns⟩

theorem trans (first : tree.Grows after) (second : after.Grows last) : tree.Grows last where
  constants :=
    ⟨second.constants.1.trans first.constants.1, second.constants.2.trans first.constants.2⟩
  roots := second.roots.trans first.roots
  nodes id node found := by
    rcases first.nodes id node found with ⟨held, located, kind_eq, service_eq⟩
    rcases second.nodes id held located with ⟨kept, there, kept_kind, kept_service⟩
    exact ⟨kept, there, kept_kind.trans kind_eq, kept_service.trans service_eq⟩
  owns id sla rings owns := second.owns id sla rings (first.owns id sla rings owns)

end Grows

/-- A tree that is coming up: the nodes of each level take its lowest slots, and no leaf has an
agreement yet. -/
structure Sown (tree : Tree) : Prop where
  sound : tree.WellFormed
  filled : ∀ kind, tree.nodes.Filled kind (tree.census.nodes.get kind)
  vacant : ∀ id node, tree.nodes.find? id = some node → node.kind = .leaf → node.configured = false

/-- A new node goes into the slot that the census counts to. -/
theorem Sown.createNode (sown : tree.Sown) (made : tree.createNode kind service = .ok (id, after)) :
    id = .ofSlot kind (tree.census.nodes.get kind) ∧ after.Sown ∧ tree.Grows after ∧
      after.census = tree.census.addNode kind ∧
      after.nodes.find? id = some (Node.fresh id kind service) := by
  rcases createNode_eq_ok sown.sound made with ⟨inner, registered, free, refilled, after_eq⟩
  have allocated : tree.nodes.allocate kind service = .ok (id, after.nodes) := by
    simp only [Tree.createNode, if_neg inner, Outcome.bind_eq_ok, Outcome.pure_eq_ok, Prod.exists,
      Prod.mk.injEq] at made
    rcases made with ⟨root, known, new, nodes, allocated, rfl, rfl⟩
    exact allocated
  rcases (sown.filled kind).allocate (sown.sound.sized kind) allocated with ⟨id_eq, room⟩
  have census_eq : after.census = tree.census.addNode kind := by rw [after_eq]
  refine ⟨id_eq, ?_, ?_, census_eq, by rw [refilled.found, if_pos rfl]⟩
  · exact
      { sound := sown.sound.createNode made
        filled := by
          intro level
          rw [census_eq, Census.get_addNode]
          split
          · next same =>
            subst same
            rw [id_eq] at refilled
            exact refilled.filled room (sown.filled level)
          · next different => exact refilled.filled_other different (sown.filled level)
        vacant := by
          intro other node found level
          rw [refilled.found] at found
          split at found
          · cases found
            rfl
          · exact sown.vacant other node found level }
  · exact
      { constants := by rw [after_eq]; exact ⟨rfl, rfl⟩
        roots := by rw [after_eq]
        nodes := by
          intro other node found
          refine ⟨node, ?_, rfl, rfl⟩
          rw [refilled.found, if_neg, found]
          rintro rfl
          rw [free] at found
          contradiction
        owns := fun other sla rings => (owns_iff_of_refilled refilled (by rw [after_eq])).2 }

/-- A new agreement of a root or a cluster leaves every node in its slot. -/
theorem Sown.commitCreate (sown : tree.Sown) {request : Sla} {plan : CreatePlan}
    (planned : tree.planCreate request = .ok plan) (inner : request.kind ≠ .leaf) :
    (tree.commitCreate plan).Sown ∧ tree.Grows (tree.commitCreate plan) := by
  rcases planCreate_accepted planned with ⟨node, accepted⟩
  rcases accepted.rebound sown.sound with ⟨remainder, rebound, -⟩
  constructor
  · exact
      { sound := sown.sound.commitCreate planned
        filled := fun level => rebound.filled (sown.filled level)
        vacant := by
          intro other held found level
          rcases rebound.eq_or_before found with ⟨rfl, rfl⟩ | ⟨different, before, was, rfl⟩
          · exact absurd (accepted.kind_eq.symm.trans level) inner
          · exact sown.vacant other before was level }
  · exact
      { constants := ⟨rfl, rfl⟩
        roots := rfl
        nodes := by
          intro other held found
          by_cases same : other = request.node
          · subst same
            rw [accepted.found, Option.some.injEq] at found
            subst found
            exact ⟨_, rebound.is, rfl, rfl⟩
          · exact ⟨_, rebound.find?_other same found, rfl, rfl⟩
        owns := fun other sla rings owns => (accepted.still_owns sown.sound owns).2 }

/-! ## The services one by one -/

/-- What a service has that was planted at a place: the agreements of its root and its cluster, and its
leaves. -/
structure Planted (tree : Tree) (place : Nat) (service : Service) : Prop where
  root : ∃ sla rings, tree.Owns (.ofSlot .root place) sla rings ∧
    sla.cir = tree.profile.serviceMax service ∧ sla.pir = tree.profile.serviceMax service
  cluster : ∃ sla rings, tree.Owns (.ofSlot .cluster place) sla rings ∧
    sla.cir = tree.profile.serviceMax service ∧ sla.pir = tree.profile.serviceMax service ∧
    sla.service = service ∧ sla.parent = some (.ofSlot .root place)
  leaves : ∀ vf < tree.config.totalVfs, ∃ leaf,
    tree.nodes.find? (.ofSlot .leaf (place * tree.config.totalVfs + vf)) = some leaf ∧
      leaf.kind = .leaf ∧ leaf.service = service

theorem Planted.grow {place : Nat} (planted : tree.Planted place service)
    (grows : tree.Grows after) : after.Planted place service := by
  rcases grows.constants with ⟨profile_eq, config_eq⟩
  constructor
  · rcases planted.root with ⟨sla, rings, owns, rates⟩
    rw [profile_eq]
    exact ⟨sla, rings, grows.owns _ _ _ owns, rates⟩
  · rcases planted.cluster with ⟨sla, rings, owns, rates⟩
    rw [profile_eq]
    exact ⟨sla, rings, grows.owns _ _ _ owns, rates⟩
  · rw [config_eq]
    intro vf below
    rcases planted.leaves vf below with ⟨leaf, found, level, service_eq⟩
    rcases grows.nodes _ leaf found with ⟨held, located, kind_eq, held_service⟩
    exact ⟨held, located, kind_eq.trans level, held_service.trans service_eq⟩

/-- A tree that is coming up and in which the given services have been planted, one at each place from
the first on. -/
structure PlantedUpTo (tree : Tree) (services : List Service) : Prop where
  sown : tree.Sown
  clusters : tree.census.nodes.get .cluster = services.length
  leaves : tree.census.nodes.get .leaf = services.length * tree.config.totalVfs
  planted : ∀ place service, services[place]? = some service → tree.Planted place service

end Tree

namespace Limiter

variable {δ α : Type} {limiter after : Limiter δ} {service : Service}

theorem onTree_eq_ok {change : Tree → Except Error (α × Tree)} {value : α}
    (done : onTree change limiter = (.ok value, after)) :
    change limiter.tree = .ok (value, after.tree) := by
  simp only [onTree] at done
  split at done
  · next result tree made =>
    cases done
    exact made
  · cases done

theorem sowLeaves (items : List α) (sown : limiter.tree.Sown)
    (done : Action.forEach items (fun _ => do let _ ← createNode .leaf service) limiter =
      (.ok (), after)) :
    after.tree.Sown ∧ limiter.tree.Grows after.tree ∧
      after.tree.census.nodes.get .cluster = limiter.tree.census.nodes.get .cluster ∧
      after.tree.census.nodes.get .leaf = limiter.tree.census.nodes.get .leaf + items.length ∧
      ∀ offset < items.length, ∃ leaf, after.tree.nodes.find?
        (.ofSlot .leaf (limiter.tree.census.nodes.get .leaf + offset)) = some leaf ∧
          leaf.kind = .leaf ∧ leaf.service = service := by
  induction items generalizing limiter with
  | nil =>
      cases done
      exact ⟨sown, .refl _, rfl, rfl, by simp⟩
  | cons _ rest ih =>
      simp only [Action.forEach, Action.bind_eq_ok, Action.pure_apply, Prod.mk.injEq] at done
      rcases done with ⟨_, between, ⟨id, made_limiter, made, -, rfl⟩, others⟩
      rcases sown.createNode (onTree_eq_ok made) with
        ⟨rfl, sown_between, grown, census_eq, found⟩
      rcases ih sown_between others with ⟨sown_after, grown_after, clusters, leaves, later⟩
      rw [census_eq] at clusters leaves later
      refine ⟨sown_after, grown.trans grown_after, clusters, ?_, ?_⟩
      · rw [leaves, List.length_cons, Nat.add_comm rest.length, ← Nat.add_assoc]
        rfl
      · intro offset below
        cases offset with
        | zero =>
            rcases grown_after.nodes _ _ found with ⟨leaf, located, kind_eq, service_eq⟩
            exact ⟨leaf, located, kind_eq, service_eq⟩
        | succ offset =>
            have numbered := later offset (Nat.lt_of_succ_lt_succ below)
            rwa [Census.get_addNode, if_pos rfl, Nat.add_assoc, Nat.add_comm 1] at numbered

variable [RegisterAccess δ] [BlockMemory δ] [AdminTransport δ]

theorem sown_createSla {request : Sla} {id : NodeId} (sown : limiter.tree.Sown)
    (inner : request.kind ≠ .leaf) (done : createSla request limiter = (.ok id, after)) :
    after.tree.Sown ∧ limiter.tree.Grows after.tree ∧
      after.tree.census.nodes = limiter.tree.census.nodes ∧
      ∃ (plan : Tree.CreatePlan) (node : Node), plan.Accepted limiter.tree request node ∧
        after.tree.Owns request.node plan.sla plan.rings := by
  rcases carryOut_eq_ok done with ⟨plan, planned, -, -, after_eq⟩
  rcases Tree.planCreate_accepted planned with ⟨node, accepted⟩
  have owns := accepted.owns sown.sound
  rw [accepted.sla_node] at owns
  rw [after_eq]
  rcases sown.commitCreate planned inner with ⟨sown_after, grows⟩
  exact ⟨sown_after, grows, rfl, plan, node, accepted, owns⟩

theorem plantService_plants {place : Nat} (sown : limiter.tree.Sown)
    (clusters : limiter.tree.census.nodes.get .cluster = place)
    (leaves : limiter.tree.census.nodes.get .leaf = place * limiter.tree.config.totalVfs)
    (registered : limiter.tree.roots.id? service = some (.ofSlot .root place))
    (done : plantService service (.ofSlot .root place) limiter = (.ok (), after)) :
    after.tree.Sown ∧ limiter.tree.Grows after.tree ∧
      after.tree.census.nodes.get .cluster = place + 1 ∧
      after.tree.census.nodes.get .leaf = (place + 1) * limiter.tree.config.totalVfs ∧
      after.tree.Planted place service := by
  simp only [plantService, Action.bind_eq_ok, Action.get_apply, Action.pure_apply, Prod.mk.injEq,
    Except.ok.injEq] at done
  rcases done with ⟨_, _, ⟨rfl, rfl⟩, cluster, clustered, made, _, leafed, sowing, _, rooted,
    granted, _, finished, shared, -, rfl⟩
  rcases sown.createNode (onTree_eq_ok made) with ⟨rfl, sown_clustered, grown, census_eq, found⟩
  rcases sowLeaves _ sown_clustered sowing with
    ⟨sown_leafed, grown_leafed, clusters_leafed, leaves_leafed, leaf_found⟩
  rcases sown_createSla sown_leafed (by simp [Sla.root]) granted with
    ⟨sown_rooted, grown_rooted, same_rooted, rootPlan, _, root_accepted, root_owns⟩
  rcases sown_createSla sown_rooted (by simp [Sla.cluster]) shared with
    ⟨sown_after, grown_after, same_after, clusterPlan, _, cluster_accepted, cluster_owns⟩
  have grown_shared := grown_rooted.trans grown_after
  have grown_all := grown.trans (grown_leafed.trans grown_shared)
  have profile_eq := grown_all.constants.1
  have config_eq := grown_all.constants.2
  -- The leaves were made after the cluster, which does not count among them.
  rw [census_eq] at clusters_leafed leaves_leafed leaf_found
  simp only [Census.get_addNode, reduceCtorEq, if_true, if_false, Nat.add_zero, clusters, leaves,
    List.length_range] at clusters_leafed leaves_leafed leaf_found
  refine ⟨sown_after, grown_all, ?_, ?_, ?_⟩
  · rw [same_after, same_rooted, clusters_leafed]
  · rw [same_after, same_rooted, leaves_leafed, Nat.succ_mul]
  · constructor
    · refine ⟨rootPlan.sla, rootPlan.rings, grown_after.owns _ _ _ root_owns, ?_, ?_⟩
      · rw [root_accepted.sla_cir, profile_eq]
        rfl
      · rw [root_accepted.sla_pir, profile_eq]
        exact Nat.max_self _
    · rw [clusters] at cluster_owns
      refine ⟨clusterPlan.sla, clusterPlan.rings, cluster_owns, ?_, ?_, cluster_accepted.sla_service, ?_⟩
      · rw [cluster_accepted.sla_cir, profile_eq]
        rfl
      · rw [cluster_accepted.sla_pir, profile_eq]
        exact Nat.max_self _
      · rcases cluster_accepted.parent_eq with ⟨root, known, under⟩
        have roots_eq := (grown.trans (grown_leafed.trans grown_rooted)).roots
        rw [roots_eq] at known
        rw [under]
        exact known.symm.trans registered
    · rw [config_eq]
      intro vf below
      rcases leaf_found vf below with ⟨leaf, located, level, service_eq⟩
      rcases grown_shared.nodes _ leaf located with ⟨held, there, kind_eq, held_service⟩
      exact ⟨held, there, kind_eq.trans level, held_service.trans service_eq⟩

/-- The service that is planted next takes the place after the others. -/
theorem plantService_next {services : List Service} (planted : limiter.tree.PlantedUpTo services)
    (registered : limiter.tree.roots.id? service = some (.ofSlot .root services.length))
    (done : plantService service (.ofSlot .root services.length) limiter = (.ok (), after)) :
    after.tree.PlantedUpTo (services ++ [service]) ∧ limiter.tree.Grows after.tree := by
  rcases plantService_plants planted.sown planted.clusters planted.leaves registered done with
    ⟨sown, grows, clusters, leaves, new⟩
  refine ⟨⟨sown, by simpa using clusters, ?_, ?_⟩, grows⟩
  · rw [grows.constants.2, List.length_append, List.length_singleton]
    exact leaves
  · intro place other listed
    rcases Nat.lt_or_ge place services.length with earlier | later
    · rw [List.getElem?_append_left earlier] at listed
      exact (planted.planted place other listed).grow grows
    · rw [List.getElem?_append_right later, List.getElem?_singleton] at listed
      split at listed
      · next first =>
        have place_eq : place = services.length := by omega
        cases listed
        rw [place_eq]
        exact new
      · cases listed

/-- Of the services in the order of their roots, those that are left are planted after the others. -/
theorem forEach_plant (services rest : List Service) (planted : limiter.tree.PlantedUpTo services)
    (registered : ∀ place service, (services ++ rest)[place]? = some service →
      limiter.tree.roots.id? service = some (.ofSlot .root place))
    (done : Action.forEach ((rest.zipIdx services.length).map fun entry =>
        (entry.1, NodeId.ofSlot .root entry.2)) (fun (service, root) => plantService service root)
      limiter = (.ok (), after)) :
    after.tree.PlantedUpTo (services ++ rest) ∧ limiter.tree.Grows after.tree := by
  induction rest generalizing services limiter with
  | nil =>
      cases done
      rw [List.append_nil]
      exact ⟨planted, .refl _⟩
  | cons service rest ih =>
      simp only [List.zipIdx_cons, List.map_cons, Action.forEach, Action.bind_eq_ok] at done
      rcases done with ⟨_, between, first, others⟩
      have place := registered services.length service (by simp)
      rcases plantService_next planted place first with ⟨planted_between, grown⟩
      have length_eq : (services ++ [service]).length = services.length + 1 := by simp
      rw [← length_eq] at others
      rcases ih _ planted_between (by simpa [grown.roots] using registered) others with
        ⟨planted_after, grown_after⟩
      rw [List.append_assoc, List.singleton_append] at planted_after
      exact ⟨planted_after, grown.trans grown_after⟩

theorem plantedUpTo_rootsOnly {profile : Profile} {config : DeviceConfig} {tree : Tree}
    (profile_valid : profile.validate = .ok ()) (config_valid : config.validate = .ok ())
    (made : rootsOnly profile config = .ok tree) :
    tree.profile = profile ∧ tree.config = config ∧ tree.RootsInOrder ∧ tree.PlantedUpTo [] := by
  have sound := wellFormed_rootsOnly profile_valid config_valid made
  have vacant : ∀ id node, tree.nodes.find? id = some node → node.kind = .leaf →
      node.configured = false := fun _ _ found _ => vacant_rootsOnly made found
  rcases rootsOnly_eq_ok made with ⟨profile_eq, config_eq, built⟩
  rcases Roots.Seeded.empty.extend built with ⟨seeded, -⟩
  rcases Roots.Seeded.empty.order Roots.Seeded.filled_empty built with ⟨roots_filled, order⟩
  have clusters := seeded.filled_inner (show NodeKind.cluster ≠ .root by simp)
  have leaves := seeded.filled_inner (show NodeKind.leaf ≠ .root by simp)
  refine ⟨profile_eq, config_eq, ?_, ⟨sound, ?_, vacant⟩, clusters.2, ?_, by simp⟩
  · intro place service listed
    rw [config_eq] at listed
    have found := order place service listed
    rwa [show Census.zero.nodes.get .root = 0 from rfl, Nat.zero_add] at found
  · intro kind
    cases kind with
    | root => exact roots_filled
    | cluster => exact clusters.1
    | leaf => exact leaves.1
  · rw [List.length_nil, Nat.zero_mul]
    exact leaves.2

end Limiter

/-! ## The layout -/

/-- A configured node of a level and a service whose committed and peak rates are the given one. -/
structure Node.Granted (node : Node) (kind : NodeKind) (service : Service) (rate : Nat) : Prop where
  kind_eq : node.kind = kind
  service_eq : node.service = service
  configured : node.configured = true
  rates : ∃ sla, node.sla = some sla ∧ sla.cir = rate ∧ sla.pir = rate

namespace Tree

variable {tree : Tree}

/-- The tree of a limiter that has just come up. -/
structure LaidOut (tree : Tree) : Prop where
  /-- The service at a place has the root and the cluster with the number of the place. Each is granted
  the whole rate of the service, which the root has promised to the cluster. -/
  services : ∀ place service, tree.config.services[place]? = some service →
    tree.roots.id? service = some (.ofSlot .root place) ∧
    (∃ root, tree.nodes.find? (.ofSlot .root place) = some root ∧
      root.Granted .root service (tree.profile.serviceMax service) ∧ root.remaining = 0) ∧
    ∃ cluster, tree.nodes.find? (.ofSlot .cluster place) = some cluster ∧
      cluster.Granted .cluster service (tree.profile.serviceMax service) ∧
      cluster.remaining = tree.profile.serviceMax service ∧
      cluster.parent = some (.ofSlot .root place)
  /-- For a function and a service, `setNodeId` names a vacant leaf of the service and the service's
  cluster. -/
  leaves : ∀ sla vf, sla.owner.checkedVf tree.config.totalVfs = .ok vf →
    sla.service ∈ tree.config.services → ∃ leaf cluster,
      tree.setNodeId sla =
        .ok { sla with node := leaf.id, id := leaf.id, kind := .leaf, parent := some cluster.id } ∧
      tree.nodes.find? leaf.id = some leaf ∧ leaf.kind = .leaf ∧ leaf.service = sla.service ∧
      leaf.configured = false ∧
      tree.nodes.find? cluster.id = some cluster ∧ cluster.kind = .cluster ∧
      cluster.service = sla.service ∧ cluster.configured = true
  /-- Different functions or services are given different leaves. -/
  apart : ∀ sla other named otherNamed, tree.setNodeId sla = .ok named →
    tree.setNodeId other = .ok otherNamed → named.node = otherNamed.node →
    sla.service = other.service ∧
      sla.owner.checkedVf tree.config.totalVfs = other.owner.checkedVf tree.config.totalVfs

theorem setNodeId_eq_ok {sla named : Sla} :
    tree.setNodeId sla = .ok named ↔ ∃ vf root,
      sla.owner.checkedVf tree.config.totalVfs = .ok vf ∧ tree.roots.id? sla.service = some root ∧
      named =
        { sla with
          node := .ofSlot .leaf (root.index * tree.config.totalVfs + vf)
          id := .ofSlot .leaf (root.index * tree.config.totalVfs + vf)
          kind := .leaf
          parent := some (.ofSlot .cluster root.index) } := by
  simp only [setNodeId, Outcome.bind_eq_ok, Outcome.pure_eq_ok, rootOf_eq_ok,
    eq_comm (b := named)]
  constructor
  · rintro ⟨vf, checked, root, known, named_eq⟩
    exact ⟨vf, root, checked, known, named_eq⟩
  · rintro ⟨vf, root, checked, known, named_eq⟩
    exact ⟨vf, checked, root, known, named_eq⟩

theorem WellFormed.leafNumber_lt (sound : tree.WellFormed) {place vf : Nat}
    (listed : place < tree.config.services.length) (below : vf < tree.config.totalVfs) :
    place * tree.config.totalVfs + vf < NodeKind.leaf.capacity :=
  calc place * tree.config.totalVfs + vf
      < (place + 1) * tree.config.totalVfs := by rw [Nat.succ_mul]; omega
    _ ≤ tree.config.services.length * tree.config.totalVfs := Nat.mul_le_mul_right _ listed
    _ = tree.config.totalVfs * tree.config.services.length := Nat.mul_comm _ _
    _ ≤ NodeKind.leaf.capacity := (DeviceConfig.bounds_of_validate sound.config_valid).2.1

/-- Place and function are the quotient and the remainder of the number of a leaf. -/
theorem leafNumber_inj {totalVfs place otherPlace vf otherVf : Nat} (below : vf < totalVfs)
    (other_below : otherVf < totalVfs)
    (same : place * totalVfs + vf = otherPlace * totalVfs + otherVf) :
    place = otherPlace ∧ vf = otherVf := by
  have some_functions := Nat.zero_lt_of_lt below
  rw [Nat.add_comm, Nat.mul_comm, Nat.add_comm (otherPlace * _), Nat.mul_comm otherPlace] at same
  rcases (Nat.div_mod_unique some_functions).2 ⟨same, below⟩ with ⟨place_eq, vf_eq⟩
  rcases (Nat.div_mod_unique some_functions).2 ⟨rfl, other_below⟩ with ⟨other_eq, other_vf_eq⟩
  exact ⟨place_eq.symm.trans other_eq, vf_eq.symm.trans other_vf_eq⟩

/-- A node whose children would be leaves has promised nothing while no leaf has an agreement. -/
theorem Sown.childrenShare_cluster (sown : tree.Sown) {id : NodeId} {cluster : Node}
    (found : tree.nodes.find? id = some cluster) (level : cluster.kind = .cluster) :
    tree.nodes.childrenShare id = 0 := by
  apply sown.sound.childrenShare_eq_zero
  intro other child located bound under
  rcases sown.sound.exists_parent located bound under with ⟨-, parent, there, -, up, -⟩
  rw [found, Option.some.injEq] at there
  subst there
  rw [level] at up
  have leaf : child.kind = .leaf := by
    cases kind : child.kind <;> simp [kind, NodeKind.parent?] at up ⊢
  rw [sown.vacant other child located leaf] at bound
  contradiction

namespace PlantedUpTo

variable (planted : tree.PlantedUpTo tree.config.services) (ordered : tree.RootsInOrder)

include planted ordered

theorem granted {place : Nat} {service : Service}
    (listed : tree.config.services[place]? = some service) :
    (∃ root, tree.nodes.find? (.ofSlot .root place) = some root ∧
      root.Granted .root service (tree.profile.serviceMax service) ∧ root.remaining = 0) ∧
    ∃ cluster, tree.nodes.find? (.ofSlot .cluster place) = some cluster ∧
      cluster.Granted .cluster service (tree.profile.serviceMax service) ∧
      cluster.remaining = tree.profile.serviceMax service ∧
      cluster.parent = some (.ofSlot .root place) := by
  have sound := planted.sown.sound
  rcases planted.planted place service listed with ⟨⟨sla, _, root_owns, cir, pir⟩,
    ⟨shared, _, cluster_owns, shared_cir, shared_pir, shared_service, shared_parent⟩, -⟩
  rcases root_owns with ⟨root, root_found, root_bound, root_carried, -⟩
  rcases cluster_owns with ⟨cluster, found, bound, carried, -⟩
  have carries := sound.carries_of_sla found carried
  have level := (sound.placed _ cluster found).2
  rw [NodeId.kind?_ofSlot, Option.some.injEq] at level
  have parent_eq := carries.parent_eq.symm.trans shared_parent
  have root_cir : root.cir = tree.profile.serviceMax service := by
    rw [Node.cir, root_carried]
    exact cir
  have cluster_cir : cluster.cir = tree.profile.serviceMax service := by
    rw [Node.cir, carried]
    exact shared_cir
  have held := sound.cir_le_childrenShare found bound parent_eq
  have root_balanced := sound.balanced _ root root_found root_bound
  have balanced := sound.balanced _ cluster found bound
  rw [planted.sown.childrenShare_cluster found level.symm] at balanced
  -- The cluster alone takes up the whole rate of its root, so the balance leaves the root nothing.
  constructor
  · refine ⟨root, root_found, ?_, by omega⟩
    rcases sound.rooted service _ (ordered place service listed).1 with
      ⟨again, found_again, root_level, root_service⟩
    rw [root_found, Option.some.injEq] at found_again
    subst found_again
    exact ⟨root_level, root_service, root_bound, sla, root_carried, cir, pir⟩
  · exact ⟨cluster, found, ⟨level.symm, carries.service_eq.symm.trans shared_service, bound, shared,
      carried, shared_cir, shared_pir⟩, by omega, parent_eq⟩

theorem laidOut : tree.LaidOut := by
  have sound := planted.sown.sound
  have placed {service : Service} {root : NodeId} (known : tree.roots.id? service = some root) :
      ∃ place, tree.config.services[place]? = some service ∧ root.index = place ∧
        place < tree.config.services.length := by
    have enabled := (sound.enabled service).1 (by rw [known]; rfl)
    rcases List.getElem?_of_mem enabled with ⟨place, listed⟩
    rcases ordered place service listed with ⟨registered, room⟩
    rw [known, Option.some.injEq] at registered
    refine ⟨place, listed, ?_, (List.getElem?_eq_some_iff.1 listed).1⟩
    rw [registered, NodeId.index_ofSlot .root (room.trans_le NodeKind.root.capacity_le)]
  constructor
  · intro place service listed
    exact ⟨(ordered place service listed).1, planted.granted ordered listed⟩
  · intro sla vf checked enabled
    rcases Option.isSome_iff_exists.1 ((sound.enabled sla.service).2 enabled) with ⟨root, known⟩
    rcases placed known with ⟨place, listed, index_eq, -⟩
    rcases (planted.planted place sla.service listed).leaves vf
      (PciAddress.lt_of_checkedVf checked) with ⟨leaf, found, level, service_eq⟩
    rcases (planted.granted ordered listed).2 with ⟨cluster, located, granted, -, -⟩
    have leaf_id := (sound.placed _ leaf found).1
    have cluster_id := (sound.placed _ cluster located).1
    refine ⟨leaf, cluster, ?_, by rw [leaf_id, found], level, service_eq,
      planted.sown.vacant _ leaf found level, by rw [cluster_id, located], granted.kind_eq,
      granted.service_eq, granted.configured⟩
    exact setNodeId_eq_ok.2 ⟨vf, root, checked, known, by rw [index_eq, leaf_id, cluster_id]⟩
  · intro sla other named otherNamed first second same
    rcases setNodeId_eq_ok.1 first with ⟨vf, root, checked, known, rfl⟩
    rcases setNodeId_eq_ok.1 second with ⟨otherVf, otherRoot, other_checked, other_known, rfl⟩
    rcases placed known with ⟨place, listed, index_eq, place_lt⟩
    rcases placed other_known with ⟨otherPlace, other_listed, other_index_eq, other_place_lt⟩
    have below := PciAddress.lt_of_checkedVf checked
    have other_below := PciAddress.lt_of_checkedVf other_checked
    have number := (sound.leafNumber_lt place_lt below).trans_le NodeKind.leaf.capacity_le
    have other_number :=
      (sound.leafNumber_lt other_place_lt other_below).trans_le NodeKind.leaf.capacity_le
    simp only [index_eq, other_index_eq] at same
    rw [NodeId.ofSlot_inj number other_number] at same
    rcases leafNumber_inj below other_below same.2 with ⟨rfl, rfl⟩
    rw [listed, Option.some.injEq] at other_listed
    exact ⟨other_listed, checked.trans other_checked.symm⟩

end PlantedUpTo

end Tree

namespace Limiter

variable {δ : Type} [RegisterAccess δ] [BlockMemory δ] [AdminTransport δ]

/-- A limiter that comes up, on whatever device, has the tree that its configuration lays out. -/
theorem laidOut_of_start {profile : Profile} {config : DeviceConfig} {device after : δ} {tree : Tree}
    (up : start profile config device = (.ok tree, after)) :
    tree.profile = profile ∧ tree.config = config ∧ tree.LaidOut := by
  simp only [start] at up
  split at up
  · cases up
  · next bare ready prepared =>
    rcases prepare_eq_ok.1 prepared with ⟨profile_valid, config_valid, made, -⟩
    rcases plantedUpTo_rootsOnly profile_valid config_valid made with
      ⟨profile_eq, config_eq, ordered, planted⟩
    split at up
    · next limiter finished =>
      cases up
      have grown := Action.undoOnError_eq_ok finished
      simp only [bootstrap, Action.bind_eq_ok, Action.get_apply, Prod.mk.injEq,
        Except.ok.injEq] at grown
      rcases grown with ⟨_, _, ⟨rfl, rfl⟩, planting⟩
      simp only [ordered.toList_eq planted.sown.sound] at planting
      rcases forEach_plant [] bare.config.services planted
        (fun place service listed => (ordered place service listed).1) planting with
        ⟨planted_after, grows⟩
      rcases grows.constants with ⟨same_profile, same_config⟩
      have ordered_after : limiter.tree.RootsInOrder := by
        intro place service listed
        rw [same_config] at listed
        rw [grows.roots]
        exact ordered place service listed
      rw [List.nil_append, ← same_config] at planted_after
      exact ⟨same_profile.trans profile_eq, same_config.trans config_eq,
        planted_after.laidOut ordered_after⟩
    · cases up

theorem laidOut_smallConfig :
    ∃ tree bench, start .gen4 smallConfig Bench.fresh = (.ok tree, bench) ∧
      tree.profile = .gen4 ∧ tree.config = smallConfig ∧ tree.LaidOut := by
  have passed : comesUp (fun _ => true) = true := by decide +kernel
  rcases exists_start passed with ⟨tree, bench, up, -⟩
  exact ⟨tree, bench, up, laidOut_of_start up⟩

end Limiter

end RateTree
