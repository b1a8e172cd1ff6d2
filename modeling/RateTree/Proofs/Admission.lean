import RateTree.Proofs.Readiness

/-!
# Admission

A request is checked against numbers that the nodes carry along: what remains of a committed rate, and
the peak rate. In a well-formed tree these checks come to the condition one would write down by looking
at the whole tree: the committed rates of the parent's children, the new one included, add up to no
more than the parent's own, the peak rate is no higher than the parent's, and the rates are worth
tokens. On a bench that answers, exactly the requests that meet the condition succeed.
-/

namespace RateTree

namespace NodeStore

/-- The committed rates of the configured nodes under a parent, all but one of them, added up. -/
def othersShare (store : NodeStore) (parent id : NodeId) : Nat :=
  ((store.allNodes.filter fun node =>
    node.configured && node.parent == some parent && node.id != id).map Node.cir).sum

theorem othersShare_eq (store : NodeStore) (parent id : NodeId) :
    store.othersShare parent id =
      store.totalOn .root (fun node => if node.id = id then 0 else node.shareUnder parent) +
        (store.totalOn .cluster (fun node => if node.id = id then 0 else node.shareUnder parent) +
          store.totalOn .leaf fun node => if node.id = id then 0 else node.shareUnder parent) := by
  have filtered (nodes : List Node) :
      ((nodes.filter fun node =>
        node.configured && node.parent == some parent && node.id != id).map Node.cir).sum =
      (nodes.map fun node => if node.id = id then 0 else node.shareUnder parent).sum := by
    induction nodes with
    | nil => rfl
    | cons node rest ih =>
        by_cases own : node.id = id
        · simp [own, ih]
        · by_cases child : node.configured = true ∧ node.parent = some parent
          · simp [Node.shareUnder, child, own, ih]
          · simp [Node.shareUnder, child, own, ih]
  simp [othersShare, filtered, allNodes, NodeKind.all, totalOn]

end NodeStore

namespace Tree

/-! ## The conditions -/

/-- Whether rates are within the largest of their service and worth tokens. -/
structure AllowsRates (tree : Tree) (service : Service) (cir pir : Nat) : Prop where
  cir_le_max : cir ≤ tree.profile.serviceMax service
  pir_le_max : pir ≤ tree.profile.serviceMax service
  worth : ∃ tokens, Tokens.ofRates tree.profile service cir (max cir pir) = .ok tokens

/-- Whether a node is configured, of a service, and has room for a child at the given rates, beside
children that hold a committed rate together. -/
def HasRoom (tree : Tree) (above : NodeId) (service : Service) (held cir pir : Nat) : Prop :=
  ∃ parent sla, tree.nodes.find? above = some parent ∧ parent.service = service ∧
    parent.configured = true ∧ parent.sla = some sla ∧ held + cir ≤ sla.cir ∧ max cir pir ≤ sla.pir

/-- Whether a request is for a vacant node of its own level and service, and for a function of the
device if the node is a leaf. -/
structure Asks (tree : Tree) (request : Sla) : Prop where
  vacant : ∃ node, tree.nodes.find? request.node = some node ∧ node.configured = false ∧
    node.kind = request.kind ∧ node.service = request.service
  owner : request.kind = .leaf → ∃ vf, request.owner.checkedVf tree.config.totalVfs = .ok vf

/-- Whether a new agreement comes under a parent: a cluster's under the root of the service, and a
leaf's under the cluster it names. -/
def ComesUnder (tree : Tree) (request : Sla) (above : NodeId) : Prop :=
  match request.kind with
  | .root => False
  | .cluster => tree.roots.id? request.service = some above
  | .leaf => request.parent = some above ∧ above.InRange .cluster

/-- The condition for a new agreement. -/
structure Admits (tree : Tree) (request : Sla) : Prop where
  rates : tree.AllowsRates request.service request.cir request.pir
  room : request.kind ≠ .root → ∃ above, tree.ComesUnder request above ∧
    tree.HasRoom above request.service (tree.nodes.childrenShare above) request.cir request.pir
  rings_free : ∀ id leaf sla, tree.nodes.find? id = some leaf → leaf.kind = .leaf →
    leaf.configured = true → leaf.sla = some sla → tree.RingsApart request sla

/-- Whether an update leaves a node under a parent: a cluster under the one it has, if it names no
other, and a leaf under the one it names, or else the one it has. -/
def StaysUnder (node : Node) (request : Sla) (above : NodeId) : Prop :=
  match node.kind with
  | .root => False
  | .cluster => node.parent = some above ∧ (request.parent = none ∨ request.parent = some above)
  | .leaf => request.parent.or node.parent = some above ∧ above.InRange .cluster

/-- The condition for a change of a node's agreement. -/
structure AdmitsUpdate (tree : Tree) (node : Node) (request : Sla) : Prop where
  rates : tree.AllowsRates node.service request.cir request.pir
  covered : tree.nodes.childrenShare request.id ≤ request.cir
  room : node.kind ≠ .root → ∃ above, StaysUnder node request above ∧
    tree.HasRoom above node.service (tree.nodes.othersShare above request.id) request.cir request.pir

variable {tree : Tree} {request : Sla} {node : Node} {id above : NodeId}

/-- A request that was planned was in order. -/
theorem asks_of_planned {plan : CreatePlan} (planned : tree.planCreate request = .ok plan) :
    tree.Asks request := by
  rcases planCreate_accepted planned with ⟨node, accepted⟩
  exact ⟨⟨node, accepted.found, accepted.vacant, accepted.kind_eq, accepted.service_eq⟩,
    accepted.owner⟩

/-- Rebinding a node leaves what is asked of another node as a parent as it was. -/
theorem hasRoom_iff_of_rebound {after : Tree} {old new : Node} {remainder : NodeId → Node → Nat}
    (rebound : tree.nodes.Rebound after.nodes id old new remainder) (different : above ≠ id)
    {service : Service} {held cir pir : Nat} :
    after.HasRoom above service held cir pir ↔ tree.HasRoom above service held cir pir := by
  constructor
  · rintro ⟨parent, sla, found, room⟩
    rcases rebound.eq_or_before found with ⟨same, -⟩ | ⟨-, before, was, rfl⟩
    · exact absurd same different
    · exact ⟨before, sla, was, room⟩
  · rintro ⟨parent, sla, found, room⟩
    exact ⟨_, sla, rebound.find?_other different found, room⟩

/-! ## Sums and remainders -/

namespace WellFormed

theorem totalOn_others (sound : tree.WellFormed) (found : tree.nodes.find? id = some node)
    (level : NodeKind) (weight : Node → Nat) :
    tree.nodes.totalOn level (fun other => if other.id = id then 0 else weight other) +
        (if level = node.kind then weight node else 0) = tree.nodes.totalOn level weight := by
  rcases sound.placed id node found with ⟨id_eq, known⟩
  have held := found
  rw [NodeStore.find?_eq_slot known] at held
  have inside := NodeStore.lt_length_of_slot held
  have without := NodeStore.totalOn_setSlot none inside level weight
  have without_others := NodeStore.totalOn_setSlot none inside level
    fun other => if other.id = id then 0 else weight other
  -- With the node's slot empty, no node is left out of the sum.
  have same : (tree.nodes.setSlot node.kind id.index none).totalOn level
      (fun other => if other.id = id then 0 else weight other) =
        (tree.nodes.setSlot node.kind id.index none).totalOn level weight := by
    refine congrArg List.sum (List.map_congr_left ?_)
    intro other mem
    rcases NodeStore.mem_nodes.1 mem with ⟨index, there⟩
    apply if_neg
    intro other_id
    by_cases here : level = node.kind ∧ index = id.index
    · rcases here with ⟨rfl, rfl⟩
      rw [NodeStore.slot_setSlot_self none inside] at there
      contradiction
    · rw [NodeStore.slot_setSlot_of_ne none here] at there
      rcases sound.find?_of_mem_nodes (NodeStore.mem_nodes.2 ⟨index, there⟩) with ⟨other_found, kind⟩
      rw [other_id, found, Option.some.injEq] at other_found
      subst other_found
      refine here ⟨kind.symm, ?_⟩
      have below := NodeStore.lt_length_of_slot there
      rw [sound.sized] at below
      have small : index < 256 := below.trans_le level.capacity_le
      have located : tree.nodes.find? (NodeId.ofSlot level index) = _ :=
        NodeStore.find?_ofSlot level small
      rw [there] at located
      have slot_eq := (sound.placed _ node located).1
      rw [← id_eq, slot_eq, NodeId.index_ofSlot level small]
  rw [held] at without without_others
  simp only [NodeStore.contribution, id_eq, if_true] at without without_others
  rw [same] at without_others
  split at without <;> simp_all

theorem othersShare_add (sound : tree.WellFormed) (found : tree.nodes.find? id = some node)
    (above : NodeId) :
    tree.nodes.othersShare above id + node.shareUnder above = tree.nodes.childrenShare above := by
  have roots := sound.totalOn_others found .root (Node.shareUnder above)
  have clusters := sound.totalOn_others found .cluster (Node.shareUnder above)
  have leaves := sound.totalOn_others found .leaf (Node.shareUnder above)
  rw [NodeStore.othersShare_eq, NodeStore.childrenShare_eq]
  cases level : node.kind <;> simp [level] at roots clusters leaves <;> omega

/-- A parent has room exactly if what remains of its committed rate, and what is given back to it,
covers the new rate. -/
theorem hasRoom_iff (sound : tree.WellFormed) {service : Service} {held back cir pir : Nat}
    (share : held + back = tree.nodes.childrenShare above) :
    tree.HasRoom above service held cir pir ↔
      ∃ parent, tree.nodes.find? above = some parent ∧ parent.service = service ∧
        parent.configured = true ∧ cir ≤ parent.remaining + back ∧ max cir pir ≤ parent.peak := by
  constructor
  · rintro ⟨parent, sla, found, serves, bound, carried, sum_le, peak_le⟩
    have balanced := sound.balanced above parent found bound
    have peak_eq := (sound.carries_of_sla found carried).peak_eq
    simp only [Node.cir, carried] at balanced
    exact ⟨parent, found, serves, bound, by omega, by omega⟩
  · rintro ⟨parent, found, serves, bound, cir_le, peak_le⟩
    rcases sound.bound above parent found bound with ⟨sla, carried, carries⟩
    have balanced := sound.balanced above parent found bound
    have peak_eq := carries.peak_eq
    simp only [Node.cir, carried] at balanced
    exact ⟨parent, sla, found, serves, bound, carried, by omega, by omega⟩

theorem remaining_le_peak (sound : tree.WellFormed) (found : tree.nodes.find? id = some node)
    (bound : node.configured = true) : node.remaining ≤ node.peak := by
  rcases sound.bound id node found bound with ⟨sla, carried, carries⟩
  have balanced := sound.balanced id node found bound
  have ordered := carries.cir_le_pir
  have peak_eq := carries.peak_eq
  simp only [Node.cir, carried] at balanced
  omega

/-! ## New agreements -/

theorem admits_of_planned (sound : tree.WellFormed) {plan : CreatePlan}
    (planned : tree.planCreate request = .ok plan) : tree.Admits request := by
  rcases planCreate_accepted planned with ⟨node, accepted⟩
  refine ⟨⟨accepted.cir_le_max, accepted.pir_le_max, plan.tokens, ?_⟩, ?_, ?_⟩
  · have tokens := accepted.tokens
    rwa [accepted.sla_service, accepted.sla_cir, accepted.sla_pir] at tokens
  · intro inner
    have room (above : NodeId) (under : plan.sla.parent = some above) :
        tree.HasRoom above request.service (tree.nodes.childrenShare above) request.cir
          request.pir := by
      rcases accepted.afforded above under with ⟨parent, found, serves, bound, cir_le, pir_le⟩
      have ordered := sound.remaining_le_peak found bound
      exact (sound.hasRoom_iff (Nat.add_zero _)).2 ⟨parent, found, serves, bound, cir_le, by omega⟩
    have place := accepted.parent_eq
    cases level : request.kind with
    | root => exact absurd level inner
    | cluster =>
        rw [level] at place
        rcases place with ⟨root, registered, under⟩
        exact ⟨root, by simpa only [ComesUnder, level] using registered, room root under⟩
    | leaf =>
        rw [level] at place
        rcases place with ⟨cluster, named, inside, under⟩
        exact ⟨cluster, by simpa only [ComesUnder, level] using ⟨named, inside⟩, room cluster under⟩
  · intro id leaf sla found level bound carried
    have different : id ≠ request.node := by
      rintro rfl
      rw [accepted.found, Option.some.injEq] at found
      subst found
      rw [accepted.vacant] at bound
      contradiction
    have same : tree.ringsOf plan.sla = tree.ringsOf request :=
      (congrArg tree.ringsOf accepted.sla_eq).trans rfl
    have apart := accepted.ringsApart sound different found carried
    rw [RingsApart, same] at apart
    exact apart

/-- A request takes the rings of its function. -/
theorem exists_ringsOf (sound : tree.WellFormed) (asks : tree.Asks request) :
    ∃ rings, tree.ringsOf request = .ok rings := by
  rcases asks.vacant with ⟨node, found, -, -, service_eq⟩
  have enabled := (sound.enabled node.service).1 (sound.served _ node found)
  by_cases leaf : request.kind = .leaf
  · rcases asks.owner leaf with ⟨vf, checked⟩
    rcases DeviceConfig.exists_ringsFor sound.config_valid enabled checked request.service with
      ⟨rings, known⟩
    exact ⟨rings, by simpa only [ringsOf, leaf] using known⟩
  · exact ⟨[], ringsOf_inner leaf⟩

/-- The parent that a request resolves to can take it. -/
theorem exists_place (sound : tree.WellFormed) (admits : tree.Admits request) {root : NodeId}
    (registered : tree.roots.id? request.service = some root) :
    ∃ parent, resolveParent request root = .ok parent ∧
      tree.checkPlace request parent = .ok () := by
  have cir_le := admits.rates.cir_le_max
  have pir_le := admits.rates.pir_le_max
  have taken {above : NodeId} (room : tree.HasRoom above request.service
      (tree.nodes.childrenShare above) request.cir request.pir) :
      tree.checkPlace request (some above) = .ok () := by
    rcases (sound.hasRoom_iff (Nat.add_zero _)).1 room with
      ⟨parent, found, serves, bound, room, peak_le⟩
    refine checkPlace_eq_ok.2 ⟨cir_le, pir_le, ?_⟩
    rintro _ ⟨⟩
    exact ⟨parent, found, serves, bound, room, by omega⟩
  cases level : request.kind with
  | root =>
      refine ⟨none, ?_, checkPlace_eq_ok.2 ⟨cir_le, pir_le, by simp⟩⟩
      rw [resolveParent_eq_ok, level]
  | cluster =>
      rcases admits.room (by simp [level]) with ⟨above, under, room⟩
      simp only [ComesUnder, level, registered, Option.some.injEq] at under
      subst under
      refine ⟨some root, ?_, taken room⟩
      rw [resolveParent_eq_ok, level]
  | leaf =>
      rcases admits.room (by simp [level]) with ⟨above, under, room⟩
      simp only [ComesUnder, level] at under
      refine ⟨some above, ?_, taken room⟩
      rw [resolveParent_eq_ok, level]
      exact ⟨above, under.1, under.2, rfl⟩

theorem planned_of_admits (sound : tree.WellFormed) (asks : tree.Asks request)
    (admits : tree.Admits request) : ∃ plan, tree.planCreate request = .ok plan := by
  rcases asks.vacant with ⟨node, found, vacant, kind_eq, service_eq⟩
  have in_range : request.node.InRange request.kind := by
    rw [← kind_eq]
    exact NodeId.inRange_iff.2 ⟨(sound.placed _ node found).2, sound.index_lt_capacity found⟩
  rcases Option.isSome_iff_exists.1 (sound.served _ node found) with ⟨root, registered⟩
  rw [service_eq] at registered
  rcases sound.exists_place admits registered with ⟨parent, resolved, placed⟩
  rcases admits.rates.worth with ⟨tokens, computed⟩
  rcases sound.exists_ringsOf asks with ⟨rings, known⟩
  have free : tree.checkRingsFree request.node rings = .ok () := by
    refine checkRingsFree_eq_ok.2 ?_
    intro other mem bound _ sla carried
    rcases sound.find?_of_mem_nodes mem with ⟨located, level⟩
    rcases (sound.carries_of_sla located carried).rings with ⟨owned, owned_eq⟩
    exact ⟨owned, owned_eq,
      admits.rings_free other.id other sla located level bound carried rings owned known owned_eq⟩
  simp only [planCreate, Outcome.bind_eq_ok, Outcome.liftError_eq_ok, Outcome.pure_eq_ok,
    NodeId.checkRange_eq_ok, rootOf_eq_ok, checkOwner_eq_ok, checkVacant_eq_ok]
  exact ⟨_, (), in_range, root, registered, (), asks.owner, (),
    ⟨node, found, vacant, service_eq, kind_eq⟩, parent, resolved, (), placed, tokens, computed, rings,
    known, (), free, rfl⟩

theorem planCreate_iff (sound : tree.WellFormed) (asks : tree.Asks request) :
    (∃ plan, tree.planCreate request = .ok plan) ↔ tree.Admits request :=
  ⟨fun ⟨_, planned⟩ => sound.admits_of_planned planned, sound.planned_of_admits asks⟩

/-! ## Changed agreements -/

/-- What the checks of an update come to for a configured node. -/
theorem planUpdate_checks (sound : tree.WellFormed)
    (found : tree.nodes.find? request.id = some node) (bound : node.configured = true) :
    (∃ plan, tree.planUpdate request = .ok plan) ↔
      tree.AllowsRates node.service request.cir request.pir ∧
        tree.nodes.childrenShare request.id ≤ request.cir ∧
        ∃ target, tree.targetParent node.kind node request.parent request.cir
            (max request.cir request.pir) = .ok target ∧
          tree.checkPresentParent node target request.cir (max request.cir request.pir) = .ok () := by
  rcases sound.placed _ node found with ⟨-, known⟩
  rcases sound.bound _ node found bound with ⟨current, carried, carries⟩
  rcases carries.rings with ⟨rings, owned⟩
  have balanced := sound.balanced _ node found bound
  simp only [planUpdate, Outcome.bind_eq_ok, Outcome.liftError_eq_ok, Outcome.pure_eq_ok,
    Prod.exists, NodeId.checkRange_eq_ok, NodeId.checkKind_eq_ok, configuredNode_eq_ok,
    checkNewRates_eq_ok, checkCovered_eq_ok, ringsOf_atRates]
  constructor
  · rintro ⟨plan, kind, kind_eq, -, -, held, sla, ⟨held_found, -, -⟩, -, ⟨cir_le, pir_le⟩, -, covered,
      target, targeted, ⟨⟩, afforded, tokens, computed, -⟩
    rw [known, Option.some.injEq] at kind_eq
    subst kind_eq
    rw [found, Option.some.injEq] at held_found
    subst held_found
    refine ⟨⟨cir_le, pir_le, tokens, computed⟩, ?_, target, targeted, afforded⟩
    change node.cir - node.remaining ≤ request.cir at covered
    omega
  · rintro ⟨⟨cir_le, pir_le, tokens, computed⟩, covered, target, targeted, afforded⟩
    refine ⟨_, node.kind, known, (), NodeId.inRange_iff.2 ⟨known, sound.index_lt_capacity found⟩,
      node, current, ⟨found, bound, carried⟩, (), ⟨cir_le, pir_le⟩, (), ?_, target, targeted, (),
      afforded, tokens, computed, rings, owned, rfl⟩
    change node.cir - node.remaining ≤ request.cir
    omega

/-- A node that stays under its parent gives its own rate back to it. -/
theorem hasRoom_iff_of_child (sound : tree.WellFormed)
    (found : tree.nodes.find? id = some node) (bound : node.configured = true)
    (under : node.parent = some above) (cir pir : Nat) :
    tree.HasRoom above node.service (tree.nodes.othersShare above id) cir pir ↔
      ∃ parent, tree.nodes.find? above = some parent ∧ cir ≤ parent.remaining + node.cir ∧
        max cir pir ≤ parent.peak := by
  have share := sound.othersShare_add found above
  rw [Node.shareUnder_of_child bound under] at share
  rw [sound.hasRoom_iff share]
  constructor
  · rintro ⟨parent, located, -, -, room⟩
    exact ⟨parent, located, room⟩
  · rintro ⟨parent, located, room⟩
    have place := sound.parents id node found bound
    simp only [ParentInPlace] at place
    split at place
    · rw [under] at place
      contradiction
    · rcases place with ⟨other, held, named, there, taken, -, serves⟩
      rw [under, Option.some.injEq] at named
      subst named
      rw [located, Option.some.injEq] at there
      subst there
      exact ⟨parent, located, serves, taken, room⟩

theorem hasRoom_iff_of_not_child (sound : tree.WellFormed)
    (found : tree.nodes.find? id = some node) (elsewhere : node.parent ≠ some above)
    (cir pir : Nat) :
    tree.HasRoom above node.service (tree.nodes.othersShare above id) cir pir ↔
      ∃ parent, tree.nodes.find? above = some parent ∧ parent.service = node.service ∧
        parent.configured = true ∧ cir ≤ parent.remaining ∧ max cir pir ≤ parent.peak := by
  have share := sound.othersShare_add found above
  rw [Node.shareUnder_of_ne elsewhere] at share
  rw [sound.hasRoom_iff share]
  rfl

theorem inRange_of_leaf (sound : tree.WellFormed) (found : tree.nodes.find? id = some node)
    (bound : node.configured = true) (leaf : node.kind = .leaf) :
    ∃ cluster, node.parent = some cluster ∧ cluster.InRange .cluster := by
  have place := sound.parents id node found bound
  simp only [ParentInPlace, leaf, NodeKind.parent?] at place
  rcases place with ⟨cluster, parent, under, located, -, kind, -⟩
  have known := (sound.placed cluster parent located).2
  have below := sound.index_lt_capacity located
  rw [kind] at known below
  exact ⟨cluster, under, NodeId.inRange_iff.2 ⟨known, below⟩⟩

/-- The parent of an update, and whether it can carry the node at the new rates. -/
theorem target_iff (sound : tree.WellFormed) (found : tree.nodes.find? request.id = some node)
    (bound : node.configured = true) {cir pir : Nat} :
    (∃ target, tree.targetParent node.kind node request.parent cir (max cir pir) = .ok target ∧
        tree.checkPresentParent node target cir (max cir pir) = .ok ()) ↔
      (node.kind ≠ .root → ∃ above, StaysUnder node request above ∧
        tree.HasRoom above node.service (tree.nodes.othersShare above request.id) cir pir) := by
  simp only [targetParent_eq_ok, checkPresentParent_eq_ok]
  have place := sound.parents _ node found bound
  cases level : node.kind with
  | root =>
      simp only [ParentInPlace, level, NodeKind.parent?] at place
      simp [place]
  | cluster =>
      simp only [ParentInPlace, level, NodeKind.parent?] at place
      rcases place with ⟨root, -, under, -⟩
      have room := sound.hasRoom_iff_of_child found bound under cir pir
      simp only [StaysUnder, level, under]
      simp [room]
  | leaf =>
      rcases sound.inRange_of_leaf found bound level with ⟨cluster, under, inside⟩
      have stays := sound.hasRoom_iff_of_child found bound under cir pir
      cases named : request.parent with
      | none => simp [StaysUnder, level, named, under, inside, stays]
      | some target =>
          -- Named or not, the present cluster gets the old rate back; another one does not.
          by_cases same : target = cluster
          · subst same
            simp [StaysUnder, level, named, under, inside, stays]
          · have elsewhere : node.parent ≠ some target := by
              rw [under]
              exact fun equal => same (Option.some.inj equal).symm
            have moves := sound.hasRoom_iff_of_not_child found elsewhere cir pir
            simp [StaysUnder, level, named, under, moves, same, Ne.symm same]

theorem planUpdate_iff (sound : tree.WellFormed)
    (found : tree.nodes.find? request.id = some node) (bound : node.configured = true) :
    (∃ plan, tree.planUpdate request = .ok plan) ↔ tree.AdmitsUpdate node request := by
  rw [sound.planUpdate_checks found bound, sound.target_iff found bound]
  exact ⟨fun ⟨rates, covered, room⟩ => ⟨rates, covered, room⟩,
    fun ⟨rates, covered, room⟩ => ⟨rates, covered, room⟩⟩

end WellFormed

end Tree

namespace Limiter

open Bench (Direct Ready Serves Follows)

variable {tree : Tree} {bench : Bench} {more : Nat} {request : Sla}

/-! ## On a bench that answers -/

/-- What is not planned does not succeed. -/
theorem planned_of_succeeds {δ α π : Type} {plan : Tree → Outcome π} {apply : π → Action δ Unit}
    {commit : Tree → π → Tree} {result : π → α} {limiter : Limiter δ} {value : α}
    (done : (carryOut plan apply commit result limiter).1 = .ok value) :
    ∃ accepted, plan limiter.tree = .ok accepted := by
  rcases carryOut_eq_ok (Prod.ext done rfl) with ⟨accepted, planned, -⟩
  exact ⟨accepted, planned⟩

theorem createSla_succeeds_iff (sound : tree.WellFormed) (serves : bench.Serves more)
    (agrees : Agrees tree bench) (asks : tree.Asks request) :
    (∃ id, (createSla request ⟨tree, bench⟩).1 = .ok id) ↔ tree.Admits request := by
  rw [← sound.planCreate_iff asks]
  constructor
  · rintro ⟨id, done⟩
    exact planned_of_succeeds done
  · rintro ⟨plan, planned⟩
    rcases createSla_of_serves sound serves agrees planned with ⟨after, done, -⟩
    exact ⟨request.node, by rw [done]⟩

theorem updateSla_succeeds_iff (sound : tree.WellFormed) (serves : bench.Serves more)
    (agrees : Agrees tree bench) {node : Node} (found : tree.nodes.find? request.id = some node)
    (bound : node.configured = true) :
    (updateSla request ⟨tree, bench⟩).1 = .ok () ↔ tree.AdmitsUpdate node request := by
  rw [← sound.planUpdate_iff found bound]
  constructor
  · intro done
    exact planned_of_succeeds done
  · rintro ⟨plan, planned⟩
    rcases updateSla_of_serves sound serves agrees planned with ⟨after, done, -⟩
    rw [done]

/-- The peak rate that a new agreement is kept with. -/
theorem pir_of_createSla (sound : tree.WellFormed) {id : NodeId} {after : Limiter Bench}
    (done : createSla request ⟨tree, bench⟩ = (.ok id, after)) :
    ∃ node sla, after.tree.nodes.find? request.node = some node ∧ node.configured = true ∧
      node.sla = some sla ∧ sla.cir = request.cir ∧ sla.pir = max request.cir request.pir := by
  rcases carryOut_eq_ok done with ⟨plan, planned, -, -, tree_eq⟩
  rcases Tree.planCreate_accepted planned with ⟨node, accepted⟩
  rcases accepted.rebound sound with ⟨remainder, rebound, -⟩
  rw [tree_eq]
  exact ⟨_, plan.sla, rebound.is, rfl, rfl, accepted.sla_cir, accepted.sla_pir⟩

/-- Admission is exact: on a bench that answers, after any run, a new agreement that is asked for in
order succeeds exactly if the tree admits it, and is kept with its peak rate raised to its committed
rate; and a change of an agreement succeeds exactly if the tree admits that. -/
theorem admission_is_exact {profile : Profile} {config : DeviceConfig} {limiter : Limiter Bench}
    (reached : Reachable profile config Direct Injects limiter) (ready : Ready limiter.device) :
    (∀ request, limiter.tree.Asks request →
      ((∃ id, (createSla request limiter).1 = .ok id) ↔ limiter.tree.Admits request) ∧
      ∀ id after, createSla request limiter = (.ok id, after) →
        ∃ node sla, after.tree.nodes.find? request.node = some node ∧ node.configured = true ∧
          node.sla = some sla ∧ sla.cir = request.cir ∧ sla.pir = max request.cir request.pir) ∧
    ∀ request node, limiter.tree.nodes.find? request.id = some node → node.configured = true →
      ((updateSla request limiter).1 = .ok () ↔ limiter.tree.AdmitsUpdate node request) := by
  have sound := reached.wellFormed
  have agrees := reached.agrees_always
  constructor
  · intro request asks
    exact ⟨createSla_succeeds_iff sound ready.serves agrees asks,
      fun _ _ done => pir_of_createSla sound done⟩
  · intro request node found bound
    exact updateSla_succeeds_iff sound ready.serves agrees found bound

/-- In runs on a bench, the first leaf is admitted, and once it is there a change to rates within those
of its cluster is, and one to rates above them is not. -/
theorem admission_is_exact_on_bench :
    ∃ before after : Limiter Bench, ∃ leaf,
      Reachable Profile.gen4 smallConfig Direct Injects before ∧
      before.tree.Asks firstLeaf ∧ before.tree.Admits firstLeaf ∧
      Reachable Profile.gen4 smallConfig Direct Injects after ∧
      after.tree.nodes.find? firstLeaf.node = some leaf ∧ leaf.configured = true ∧
      after.tree.AdmitsUpdate leaf (.update firstLeaf.node 3000 4000 none) ∧
      ¬after.tree.AdmitsUpdate leaf (.update firstLeaf.node 3000 96000 none) := by
  have passed : comesUp (fun limiter =>
      let after := withFirstLeaf limiter
      decide (Ready limiter.device ∧ Ready after.device ∧
        limiter.tree.nodes.find? firstLeaf.node =
          some (.fresh firstLeaf.node firstLeaf.kind firstLeaf.service) ∧
        (createSla firstLeaf limiter).1 = .ok firstLeaf.node ∧
        (updateSla (.update firstLeaf.node 3000 4000 none) after).1 = .ok () ∧
        (updateSla (.update firstLeaf.node 3000 96000 none) after).1 ≠ .ok ())) = true := by
    decide +kernel
  rcases exists_start passed with ⟨tree, bench, up, result⟩
  simp only [decide_eq_true_eq] at result
  rcases result with ⟨ready, ready_after, vacant, created, changed, refused⟩
  have direct : Direct Bench.fresh := ⟨rfl, rfl, rfl⟩
  have started : Reachable Profile.gen4 smallConfig Direct Injects ⟨tree, bench⟩ :=
    .started direct up
  have reached : Reachable Profile.gen4 smallConfig Direct Injects (withFirstLeaf ⟨tree, bench⟩) :=
    .performed (.createSla firstLeaf) started
  have asks : tree.Asks firstLeaf := by
    refine ⟨⟨_, vacant, rfl, rfl, rfl⟩, fun _ => ⟨0, ?_⟩⟩
    rw [started.constants.2]
    decide
  have admitted := (admission_is_exact started ready).1 firstLeaf asks
  have admits : tree.Admits firstLeaf := admitted.1.1 ⟨_, created⟩
  have run : createSla firstLeaf ⟨tree, bench⟩ = (.ok firstLeaf.node, withFirstLeaf ⟨tree, bench⟩) :=
    Prod.ext created (withFirstLeaf_eq _).symm
  rcases admitted.2 _ _ run with ⟨leaf, sla, found, bound, -⟩
  have changes := (admission_is_exact reached ready_after).2
  exact ⟨_, _, leaf, started, asks, admits, reached, found, bound,
    (changes (.update firstLeaf.node 3000 4000 none) leaf found bound).1 changed,
    fun admits => refused ((changes (.update firstLeaf.node 3000 96000 none) leaf found bound).2
      admits)⟩

end Limiter

end RateTree
