import RateTree.Proofs.NodeStore
import RateTree.Tree

/-!
# Well-formed trees

The invariant of a tree. Every node sits in the slot that its identifier names; a node without an
agreement is as fresh as when it was made, and a node with one carries it in a consistent way under
a configured parent one level up. What remains of a configured node's committed rate and what its
children hold add up to that rate. No ring belongs to two agreements, and the registry of roots and
the census say what the store holds.
-/

namespace RateTree

theorem Profile.serviceMax_lt (profile : Profile) (service : Service) :
    profile.serviceMax service < 2 ^ 32 := by
  cases service <;> exact UInt32.toNat_lt _

namespace Node

/-- What a node holds of the budget of a parent. -/
def shareUnder (parent : NodeId) (node : Node) : Nat :=
  if node.configured = true ∧ node.parent = some parent then node.cir else 0

theorem shareUnder_of_ne {node : Node} {parent : NodeId} (elsewhere : node.parent ≠ some parent) :
    node.shareUnder parent = 0 := by
  simp [shareUnder, elsewhere]

theorem shareUnder_of_vacant {node : Node} (vacant : node.configured = false) (parent : NodeId) :
    node.shareUnder parent = 0 := by
  simp [shareUnder, vacant]

theorem shareUnder_of_parent {node : Node} {above : NodeId} (bound : node.configured = true)
    (under : node.parent = some above) (parent : NodeId) :
    node.shareUnder parent = if above = parent then node.cir else 0 := by
  simp [shareUnder, bound, under]

theorem shareUnder_of_child {node : Node} {parent : NodeId} (bound : node.configured = true)
    (under : node.parent = some parent) : node.shareUnder parent = node.cir :=
  (shareUnder_of_parent bound under parent).trans (if_pos rfl)

end Node

namespace NodeStore

/-- The committed rates of the configured nodes under a parent, added up. -/
def childrenShare (store : NodeStore) (parent : NodeId) : Nat :=
  ((store.allNodes.filter fun node => node.configured && node.parent == some parent).map
    Node.cir).sum

theorem childrenShare_eq (store : NodeStore) (parent : NodeId) :
    store.childrenShare parent =
      store.totalOn .root (Node.shareUnder parent) +
        (store.totalOn .cluster (Node.shareUnder parent) +
          store.totalOn .leaf (Node.shareUnder parent)) := by
  have filtered (nodes : List Node) :
      ((nodes.filter fun node => node.configured && node.parent == some parent).map
        Node.cir).sum = (nodes.map (Node.shareUnder parent)).sum := by
    induction nodes with
    | nil => rfl
    | cons node rest ih =>
        by_cases child : node.configured = true ∧ node.parent = some parent
        · simp [Node.shareUnder, child, ih]
        · simp [Node.shareUnder, child, ih]
  simp [childrenShare, filtered, allNodes, NodeKind.all, totalOn]

end NodeStore

namespace Tree

/-- Whether a node's parent is there, configured, one level up and of the node's service; a root has
no parent. -/
def ParentInPlace (tree : Tree) (node : Node) : Prop :=
  match node.kind.parent? with
  | none => node.parent = none
  | some above => ∃ id parent, node.parent = some id ∧ tree.nodes.find? id = some parent ∧
      parent.configured = true ∧ parent.kind = above ∧ parent.service = node.service

/-- How a configured node carries its agreement. -/
structure Carries (tree : Tree) (node : Node) (sla : Sla) : Prop where
  id_eq : sla.id = node.id
  node_eq : sla.node = node.id
  kind_eq : sla.kind = node.kind
  service_eq : sla.service = node.service
  parent_eq : sla.parent = node.parent
  cir_le_pir : sla.cir ≤ sla.pir
  pir_le_max : sla.pir ≤ tree.profile.serviceMax sla.service
  peak_eq : node.peak = sla.pir
  rings : ∃ rings, tree.ringsOf sla = .ok rings
  tokens : ∃ tokens, Tokens.ofRates tree.profile sla.service sla.cir sla.pir = .ok tokens

/-- Whether no ring belongs to both of two agreements. -/
def RingsApart (tree : Tree) (sla other : Sla) : Prop :=
  ∀ rings owned, tree.ringsOf sla = .ok rings → tree.ringsOf other = .ok owned →
    ∀ ring ∈ rings, ring ∉ owned

theorem RingsApart.symm {tree : Tree} {sla other : Sla} (apart : tree.RingsApart sla other) :
    tree.RingsApart other sla := by
  intro owned rings owned_eq rings_eq ring owned_mem ring_mem
  exact apart rings owned rings_eq owned_eq ring ring_mem owned_mem

/-- Whether a census counts the nodes of a store, and those with an agreement. -/
def Counts (census : Census) (nodes : NodeStore) : Prop :=
  ∀ kind, census.nodes.get kind = (nodes.nodes kind).length ∧
    census.slas.get kind = (nodes.nodes kind).countP Node.configured

/-- The invariant of a tree. -/
structure WellFormed (tree : Tree) : Prop where
  profile_valid : tree.profile.validate = .ok ()
  config_valid : tree.config.validate = .ok ()
  enabled : ∀ service, (tree.roots.id? service).isSome = true ↔ service ∈ tree.config.services
  sized : ∀ kind, (tree.nodes.slots.get kind).length = kind.capacity
  placed : ∀ id node, tree.nodes.find? id = some node →
    node.id = id ∧ id.kind? = some node.kind
  vacant : ∀ id node, tree.nodes.find? id = some node → node.configured = false →
    node = Node.fresh node.id node.kind node.service
  bound : ∀ id node, tree.nodes.find? id = some node → node.configured = true →
    ∃ sla, node.sla = some sla ∧ tree.Carries node sla
  parents : ∀ id node, tree.nodes.find? id = some node → node.configured = true →
    tree.ParentInPlace node
  balanced : ∀ id node, tree.nodes.find? id = some node → node.configured = true →
    node.remaining + tree.nodes.childrenShare id = node.cir
  apart : ∀ id other node otherNode sla otherSla, id ≠ other →
    tree.nodes.find? id = some node → tree.nodes.find? other = some otherNode →
    node.sla = some sla → otherNode.sla = some otherSla → tree.RingsApart sla otherSla
  rooted : ∀ service id, tree.roots.id? service = some id →
    ∃ node, tree.nodes.find? id = some node ∧ node.kind = .root ∧ node.service = service
  registered : ∀ id node, tree.nodes.find? id = some node → node.kind = .root →
    tree.roots.id? node.service = some id
  served : ∀ id node, tree.nodes.find? id = some node →
    (tree.roots.id? node.service).isSome = true
  counted : Counts tree.census tree.nodes

variable {tree : Tree}

/-- A node is not its own parent. -/
theorem ParentInPlace.ne_self {node : Node} {id : NodeId} {held : Node}
    (above : tree.ParentInPlace node) (found : tree.nodes.find? id = some held)
    (same_kind : held.kind = node.kind) : node.parent ≠ some id := by
  intro own
  simp only [ParentInPlace] at above
  split at above
  · rw [own] at above
    contradiction
  · next level up =>
    rcases above with ⟨parent, parentNode, under, located, -, kind, -⟩
    rw [own, Option.some.injEq] at under
    subst under
    rw [found, Option.some.injEq] at located
    subst located
    rw [same_kind] at kind
    rw [kind] at up
    cases level <;> simp [NodeKind.parent?] at up

theorem ringsOf_inner {sla : Sla} (inner : sla.kind ≠ .leaf) : tree.ringsOf sla = .ok [] := by
  cases level : sla.kind with
  | leaf => exact absurd level inner
  | root | cluster => simp only [ringsOf, level]

/-- Only a leaf takes rings. -/
theorem not_mem_ringsOf {sla : Sla} {rings : List Nat} {ring : Nat} (inner : sla.kind ≠ .leaf)
    (known : tree.ringsOf sla = .ok rings) : ring ∉ rings := by
  rw [ringsOf_inner inner, Except.ok.injEq] at known
  simp [← known]

namespace WellFormed

/-- A slot is one of its level's, and the node in it has the slot's identifier. -/
theorem node_of_slot (sound : tree.WellFormed) {kind : NodeKind} {index : Nat} {node : Node}
    (held : tree.nodes.slot kind index = some node) :
    index < kind.capacity ∧ node.id = NodeId.ofSlot kind index ∧ node.kind = kind := by
  have below := NodeStore.lt_length_of_slot held
  rw [sound.sized] at below
  have small : index < 256 := below.trans_le kind.capacity_le
  have found : tree.nodes.find? (NodeId.ofSlot kind index) = tree.nodes.slot kind index :=
    NodeStore.find?_ofSlot kind small
  rw [held] at found
  rcases sound.placed _ _ found with ⟨id_eq, known⟩
  rw [NodeId.kind?_ofSlot, Option.some.injEq] at known
  exact ⟨below, id_eq, known.symm⟩

/-- The nodes of a level are found under their identifiers. -/
theorem find?_of_mem_nodes (sound : tree.WellFormed) {kind : NodeKind} {node : Node}
    (mem : node ∈ tree.nodes.nodes kind) :
    tree.nodes.find? node.id = some node ∧ node.kind = kind := by
  rcases NodeStore.mem_nodes.1 mem with ⟨index, held⟩
  rcases sound.node_of_slot held with ⟨below, id_eq, level⟩
  have small : index < 256 := below.trans_le kind.capacity_le
  rw [id_eq, NodeStore.find?_ofSlot kind small]
  exact ⟨held, level⟩

/-- The nodes of a level are listed in the order of their identifiers. -/
theorem sorted_nodes (sound : tree.WellFormed) (kind : NodeKind) :
    (tree.nodes.nodes kind).Pairwise fun node other => node.id.raw < other.id.raw := by
  rw [NodeStore.nodes, List.pairwise_filterMap, List.pairwise_iff_getElem]
  intro first second first_lt second_lt below node held other other_held
  have in_slot {index : Nat} {node : Node} (inside : index < (tree.nodes.slots.get kind).length)
      (held : (tree.nodes.slots.get kind)[index] = some node) :
      index < kind.capacity ∧ node.id = NodeId.ofSlot kind index ∧ node.kind = kind := by
    apply sound.node_of_slot
    rw [NodeStore.slot, List.getElem?_eq_getElem inside, held]
    rfl
  rcases in_slot first_lt held with ⟨-, id_eq, -⟩
  rcases in_slot second_lt other_held with ⟨inside, other_eq, -⟩
  have few := kind.capacity_le
  rw [id_eq, other_eq]
  simp only [NodeId.ofSlot, NodeId.pack]
  omega

/-- The nodes of a level have identifiers of their own. -/
theorem nodup_ids (sound : tree.WellFormed) (kind : NodeKind) : (tree.nodes.ids kind).Nodup := by
  rw [NodeStore.ids, List.Nodup, List.pairwise_map]
  refine (sound.sorted_nodes kind).imp ?_
  intro node other below same
  rw [same] at below
  exact Nat.lt_irrefl _ below

theorem mem_nodes_of_find? (sound : tree.WellFormed) {id : NodeId} {node : Node}
    (found : tree.nodes.find? id = some node) : node ∈ tree.nodes.nodes node.kind := by
  have placed := sound.placed id node found
  rw [NodeStore.find?_eq_slot placed.2] at found
  exact NodeStore.mem_nodes.2 ⟨id.index, found⟩

/-- Only a configured node has an agreement. -/
theorem configured_of_sla (sound : tree.WellFormed) {id : NodeId} {node : Node} {sla : Sla}
    (found : tree.nodes.find? id = some node) (carried : node.sla = some sla) :
    node.configured = true := by
  by_contra free
  have fresh := sound.vacant id node found (by simpa using free)
  rw [fresh] at carried
  simp [Node.fresh] at carried

/-- Where no configured node hangs below, nothing has been promised. -/
theorem childrenShare_eq_zero (sound : tree.WellFormed) {id : NodeId}
    (childless : ∀ other node, tree.nodes.find? other = some node → node.configured = true →
      node.parent ≠ some id) : tree.nodes.childrenShare id = 0 := by
  have weightless (kind : NodeKind) : tree.nodes.totalOn kind (Node.shareUnder id) = 0 := by
    apply NodeStore.totalOn_eq_zero
    intro node mem
    rcases sound.find?_of_mem_nodes mem with ⟨found, -⟩
    by_cases bound : node.configured = true
    · exact Node.shareUnder_of_ne (childless node.id node found bound)
    · exact Node.shareUnder_of_vacant (by simpa using bound) id
  rw [NodeStore.childrenShare_eq, weightless, weightless, weightless]

/-- What a child holds is part of what its parent has promised. -/
theorem cir_le_childrenShare (sound : tree.WellFormed) {id parent : NodeId} {node : Node}
    (found : tree.nodes.find? id = some node) (bound : node.configured = true)
    (under : node.parent = some parent) : node.cir ≤ tree.nodes.childrenShare parent := by
  have part := NodeStore.le_totalOn (sound.mem_nodes_of_find? found) (Node.shareUnder parent)
  rw [Node.shareUnder_of_child bound under] at part
  rw [NodeStore.childrenShare_eq]
  cases level : node.kind <;> rw [level] at part <;> omega

/-- No configured node hangs below a vacant one. -/
theorem childless_of_vacant (sound : tree.WellFormed) {id : NodeId} {node : Node}
    (found : tree.nodes.find? id = some node) (vacant : node.configured = false) (other : NodeId)
    (child : Node) (located : tree.nodes.find? other = some child)
    (bound : child.configured = true) : child.parent ≠ some id := by
  intro under
  have place := sound.parents other child located bound
  simp only [ParentInPlace] at place
  split at place
  · rw [under] at place
    contradiction
  · rcases place with ⟨parent, parentNode, named, there, configured, -⟩
    rw [under, Option.some.injEq] at named
    subst named
    rw [found, Option.some.injEq] at there
    subst there
    rw [vacant] at configured
    contradiction

theorem kind_eq_of_inRange (sound : tree.WellFormed) {id : NodeId} {node : Node}
    {kind : NodeKind} (found : tree.nodes.find? id = some node) (inside : id.InRange kind) :
    node.kind = kind := by
  have placed := (sound.placed id node found).2
  rw [(NodeId.inRange_iff.1 inside).1, Option.some.injEq] at placed
  exact placed.symm

/-- The committed rate of a node is within the largest rate of its service and covers the shares of its
children. -/
theorem cir_bounds (sound : tree.WellFormed) {id : NodeId} {node : Node}
    (found : tree.nodes.find? id = some node) (bound : node.configured = true) :
    node.cir ≤ tree.profile.serviceMax node.service ∧ tree.nodes.childrenShare id ≤ node.cir := by
  rcases sound.bound id node found bound with ⟨sla, carried, carries⟩
  have ordered := carries.cir_le_pir
  have ceiling := carries.pir_le_max
  have balanced := sound.balanced id node found bound
  rw [carries.service_eq] at ceiling
  simp only [Node.cir, carried] at balanced ⊢
  omega

theorem cir_le_max32 (sound : tree.WellFormed) {id : NodeId} {node : Node}
    (found : tree.nodes.find? id = some node) (bound : node.configured = true) :
    node.cir ≤ Word.max32 := by
  have ceiling := tree.profile.serviceMax_lt node.service
  have within := (sound.cir_bounds found bound).1
  simp only [Word.max32]
  omega

/-- The parent of a configured node is another node, and what the node holds can go back to it. -/
theorem exists_parent (sound : tree.WellFormed) {id above : NodeId} {node : Node}
    (found : tree.nodes.find? id = some node) (bound : node.configured = true)
    (under : node.parent = some above) :
    above ≠ id ∧ ∃ parent, tree.nodes.find? above = some parent ∧ parent.configured = true ∧
      some parent.kind = node.kind.parent? ∧ parent.remaining + node.cir ≤ parent.cir := by
  have place := sound.parents id node found bound
  have held := sound.cir_le_childrenShare found bound under
  constructor
  · rintro rfl
    exact place.ne_self found rfl under
  · simp only [ParentInPlace] at place
    split at place
    · rw [under] at place
      contradiction
    · next level up =>
      rcases place with ⟨other, parent, named, located, taken, kind, -⟩
      rw [under, Option.some.injEq] at named
      subst named
      have balanced := sound.balanced above parent located taken
      exact ⟨parent, located, taken, by rw [up, kind], by omega⟩

end WellFormed

end Tree

end RateTree
