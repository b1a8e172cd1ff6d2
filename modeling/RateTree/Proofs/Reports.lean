import Mathlib.Algebra.BigOperators.Group.Multiset.Basic
import Mathlib.Data.List.Sort
import RateTree.Capabilities
import RateTree.Proofs.Invariant
import RateTree.Proofs.Owners

/-!
# Reports

A limiter's reports are read off its tree and say what the tree holds. The report of agreements passes over
a service whose root has none, and yet leaves nothing out, since every configured leaf is below a configured
root. The report of capabilities adds up what the clusters have left, with sums that are cut off at the width
of a word, and yet nothing is cut off, since the clusters hold no more than their root.
-/

namespace RateTree

namespace Roots

theorem insertById_eq (entry : Service × NodeId) (entries : List (Service × NodeId)) :
    insertById entry entries =
      entries.orderedInsert (fun first second => first.2.raw ≤ second.2.raw) entry := by
  induction entries with
  | nil => rfl
  | cons other rest ih => simp only [insertById, ih, List.orderedInsert_cons]

theorem toList_eq (roots : Roots) :
    roots.toList =
      (Service.all.filterMap fun service => (roots.id? service).map fun id =>
        (service, id)).insertionSort fun first second => first.2.raw ≤ second.2.raw := by
  rw [toList, List.insertionSort]
  congr
  funext entry entries
  exact insertById_eq entry entries

theorem sorted_toList (roots : Roots) :
    roots.toList.Pairwise fun first second => first.2.raw ≤ second.2.raw := by
  have : Std.Total fun first second : Service × NodeId => first.2.raw ≤ second.2.raw :=
    ⟨fun _ _ => Nat.le_total _ _⟩
  have : IsTrans (Service × NodeId) fun first second => first.2.raw ≤ second.2.raw :=
    ⟨fun _ _ _ => Nat.le_trans⟩
  rw [toList_eq]
  exact List.pairwise_insertionSort _ _

theorem nodup_toList (roots : Roots) : roots.toList.Nodup := by
  rw [toList_eq, (List.perm_insertionSort _ _).nodup_iff]
  have services : Service.all.Nodup := by decide
  refine services.filterMap ?_
  intro service other entry mem other_mem
  rcases Option.map_eq_some_iff.1 mem with ⟨_, -, rfl⟩
  rcases Option.map_eq_some_iff.1 other_mem with ⟨_, -, same⟩
  exact (congrArg Prod.fst same).symm

end Roots

namespace NodeStore

/-- The agreements of the configured nodes of a level, in the order of the nodes. -/
def agreements (store : NodeStore) (kind : NodeKind) : List Sla :=
  (store.nodes kind).filterMap fun node => if node.configured then node.sla else none

/-- The sum of a weight over the nodes of a level for a service. -/
def totalFor (store : NodeStore) (kind : NodeKind) (service : Service) (weight : Node → Nat) : Nat :=
  (((store.nodes kind).filter fun node => node.service == service).map weight).sum

theorem totalFor_eq_totalOn (store : NodeStore) (kind : NodeKind) (service : Service)
    (weight : Node → Nat) :
    store.totalFor kind service weight =
      store.totalOn kind fun node => if node.service = service then weight node else 0 := by
  simp [totalFor, totalOn, List.sum_map_ite, beq_eq_decide]

theorem totalOn_congr {store : NodeStore} {kind : NodeKind} {weight other : Node → Nat}
    (same : ∀ node ∈ store.nodes kind, weight node = other node) :
    store.totalOn kind weight = store.totalOn kind other :=
  congrArg List.sum (List.map_congr_left same)

theorem totalFor_congr {store : NodeStore} {kind : NodeKind} {service : Service}
    {weight other : Node → Nat}
    (same : ∀ node ∈ store.nodes kind, node.service = service → weight node = other node) :
    store.totalFor kind service weight = store.totalFor kind service other := by
  rw [totalFor_eq_totalOn, totalFor_eq_totalOn]
  apply totalOn_congr
  intro node mem
  split
  · next service_eq => exact same node mem service_eq
  · rfl

theorem totalFor_add (store : NodeStore) (kind : NodeKind) (service : Service)
    (weight other : Node → Nat) :
    store.totalFor kind service (fun node => weight node + other node) =
      store.totalFor kind service weight + store.totalFor kind service other :=
  List.sum_map_add

theorem totalFor_totalOn (store : NodeStore) (kind other : NodeKind) (service : Service)
    (weight : Node → Node → Nat) :
    store.totalFor kind service (fun node => store.totalOn other (weight node)) =
      store.totalOn other fun below => store.totalFor kind service fun node => weight node below :=
  Multiset.sum_map_sum_map (Multiset.ofList _) (Multiset.ofList _)

/-- The committed rates of a level's configured nodes for a service, added up. -/
def heldOn (store : NodeStore) (kind : NodeKind) (service : Service) : Nat :=
  (((store.nodes kind).filter fun node => node.configured && node.service == service).map
    Node.cir).sum

end NodeStore

namespace Tree

variable {tree : Tree} {id : NodeId} {node : Node} {service : Service}

/-! ## Agreements -/

/-- The part of the report that is about one service, with its root. -/
def slasUnder (tree : Tree) (entry : Service × NodeId) : List Sla :=
  if (tree.nodes.find? entry.2).any Node.configured then
    (tree.nodes.nodes .leaf).filterMap fun node =>
      if node.configured && node.service == entry.1 then node.sla else none
  else []

theorem userSlas_eq (tree : Tree) : tree.userSlas = tree.roots.toList.flatMap tree.slasUnder := rfl

/-- Whether an agreement is reported before another: the root of its service has the lower identifier, or
they are of one service and its leaf has. -/
def ReportedBefore (tree : Tree) (sla other : Sla) : Prop :=
  ∃ root otherRoot, tree.roots.id? sla.service = some root ∧
    tree.roots.id? other.service = some otherRoot ∧
    (root.raw < otherRoot.raw ∨ sla.service = other.service ∧ sla.node.raw < other.node.raw)

theorem ReportedBefore.irrefl (tree : Tree) (sla : Sla) : ¬ tree.ReportedBefore sla sla := by
  rintro ⟨root, _, known, again, below | ⟨-, below⟩⟩
  · rw [known, Option.some.injEq] at again
    subst again
    exact Nat.lt_irrefl _ below
  · exact Nat.lt_irrefl _ below

namespace WellFormed

theorem sorted_roots (sound : tree.WellFormed) :
    tree.roots.toList.Pairwise fun first second => first.2.raw < second.2.raw := by
  refine (tree.roots.sorted_toList.and tree.roots.nodup_toList).imp_of_mem ?_
  rintro ⟨service, ⟨raw⟩⟩ ⟨other, ⟨otherRaw⟩⟩ mem other_mem ⟨ordered, different⟩
  refine Nat.lt_of_le_of_ne ordered ?_
  rintro rfl
  rcases sound.rooted _ _ (Roots.mem_toList.1 mem) with ⟨node, found, -, service_eq⟩
  rcases sound.rooted _ _ (Roots.mem_toList.1 other_mem) with ⟨again, found_again, -, other_eq⟩
  rw [found, Option.some.injEq] at found_again
  exact different (by rw [← service_eq, ← other_eq, found_again])

theorem exists_above (sound : tree.WellFormed) {upper : NodeKind}
    (found : tree.nodes.find? id = some node) (bound : node.configured = true)
    (up : node.kind.parent? = some upper) :
    ∃ above parent, tree.nodes.find? above = some parent ∧ parent.configured = true ∧
      parent.kind = upper ∧ parent.service = node.service := by
  have place := sound.parents id node found bound
  simp only [ParentInPlace, up] at place
  rcases place with ⟨above, parent, -, placed⟩
  exact ⟨above, parent, placed⟩

theorem exists_configured_root (sound : tree.WellFormed) {id : NodeId} {node : Node}
    (found : tree.nodes.find? id = some node) (bound : node.configured = true) :
    ∃ root top, tree.roots.id? node.service = some root ∧ tree.nodes.find? root = some top ∧
      top.configured = true := by
  cases up : node.kind.parent? with
  | none =>
      have level : node.kind = .root := by
        cases kind : node.kind <;> simp [kind, NodeKind.parent?] at up ⊢
      exact ⟨id, node, sound.registered id node found level, found, bound⟩
  | some upper =>
      rcases sound.exists_above found bound up with ⟨above, parent, located, taken, level, same⟩
      have nearer : parent.kind.tag < node.kind.tag := by
        rw [level]
        cases kind : node.kind <;> simp [kind, NodeKind.parent?] at up <;> subst up <;> decide
      rw [← same]
      exact sound.exists_configured_root located taken
termination_by node.kind.tag

/-- Agreements that are picked from the nodes of a level, each from its own node, are in the order of the
nodes. -/
theorem sorted_slas (sound : tree.WellFormed) (kind : NodeKind) {pick : Node → Option Sla}
    (own : ∀ node sla, pick node = some sla → node.sla = some sla) :
    ((tree.nodes.nodes kind).filterMap pick).Pairwise fun sla other =>
      sla.node.raw < other.node.raw := by
  have named {node : Node} {sla : Sla} (mem : node ∈ tree.nodes.nodes kind)
      (picked : pick node = some sla) : sla.node = node.id :=
    (sound.carries_of_sla (sound.find?_of_mem_nodes mem).1 (own node sla picked)).node_eq
  rw [List.pairwise_filterMap]
  refine (sound.sorted_nodes kind).imp_of_mem ?_
  intro node other mem other_mem below sla picked otherSla other_picked
  rw [named mem picked, named other_mem other_picked]
  exact below

theorem nodup_agreements (sound : tree.WellFormed) (kind : NodeKind) :
    (tree.nodes.agreements kind).Nodup := by
  have sorted : (tree.nodes.agreements kind).Pairwise fun sla other =>
      sla.node.raw < other.node.raw :=
    sound.sorted_slas kind fun node sla picked => (Option.ite_none_right_eq_some.1 picked).2
  refine sorted.imp ?_
  rintro sla _ below rfl
  exact Nat.lt_irrefl _ below

theorem length_agreements (sound : tree.WellFormed) (kind : NodeKind) :
    (tree.nodes.agreements kind).length = tree.census.slas.get kind := by
  rw [NodeStore.agreements, List.length_filterMap_eq_countP, (sound.counted kind).2]
  apply List.countP_congr
  intro node mem
  by_cases bound : node.configured = true
  · rcases sound.bound _ node (sound.find?_of_mem_nodes mem).1 bound with ⟨sla, carried, -⟩
    simp [bound, carried]
  · simp [bound]

theorem mem_slasUnder (sound : tree.WellFormed) {entry : Service × NodeId} {sla : Sla}
    (mem : sla ∈ tree.slasUnder entry) :
    sla.service = entry.1 ∧ sla ∈ tree.nodes.agreements .leaf := by
  simp only [slasUnder, List.mem_ite_nil_right, List.mem_filterMap, Option.ite_none_right_eq_some,
    Bool.and_eq_true, beq_iff_eq] at mem
  rcases mem with ⟨-, leaf, leaf_mem, ⟨bound, service_eq⟩, carried⟩
  have carries := sound.carries_of_sla (sound.find?_of_mem_nodes leaf_mem).1 carried
  exact ⟨carries.service_eq.trans service_eq,
    List.mem_filterMap.2 ⟨leaf, leaf_mem, Option.ite_none_right_eq_some.2 ⟨bound, carried⟩⟩⟩

theorem mem_userSlas (sound : tree.WellFormed) {sla : Sla} :
    sla ∈ tree.userSlas ↔ sla ∈ tree.nodes.agreements .leaf := by
  rw [userSlas_eq, List.mem_flatMap]
  constructor
  · rintro ⟨entry, -, mem⟩
    exact (sound.mem_slasUnder mem).2
  · intro mem
    rcases List.mem_filterMap.1 mem with ⟨leaf, leaf_mem, picked⟩
    rcases Option.ite_none_right_eq_some.1 picked with ⟨bound, carried⟩
    -- The root of its service is configured, too, so that the service is not left out.
    rcases sound.exists_configured_root (sound.find?_of_mem_nodes leaf_mem).1 bound with
      ⟨root, top, known, located, taken⟩
    refine ⟨(leaf.service, root), Roots.mem_toList.2 known, ?_⟩
    rw [slasUnder, if_pos (by simp [located, taken])]
    exact List.mem_filterMap.2 ⟨leaf, leaf_mem, by simp [bound, carried]⟩

theorem sorted_userSlas (sound : tree.WellFormed) :
    tree.userSlas.Pairwise tree.ReportedBefore := by
  rw [userSlas_eq, List.pairwise_flatMap]
  constructor
  · rintro ⟨service, root⟩ mem
    have sorted : (tree.slasUnder (service, root)).Pairwise fun sla other =>
        sla.node.raw < other.node.raw := by
      rw [slasUnder]
      split
      · exact sound.sorted_slas .leaf fun node sla picked =>
          (Option.ite_none_right_eq_some.1 picked).2
      · exact List.Pairwise.nil
    refine sorted.imp_of_mem ?_
    intro sla other sla_mem other_mem below
    have service_eq := (sound.mem_slasUnder sla_mem).1
    have other_eq := (sound.mem_slasUnder other_mem).1
    have known := Roots.mem_toList.1 mem
    exact ⟨root, root, service_eq ▸ known, other_eq ▸ known,
      .inr ⟨service_eq.trans other_eq.symm, below⟩⟩
  · refine sound.sorted_roots.imp_of_mem ?_
    rintro ⟨service, root⟩ ⟨other, otherRoot⟩ mem other_mem below sla sla_mem otherSla otherSla_mem
    have service_eq := (sound.mem_slasUnder sla_mem).1
    have other_eq := (sound.mem_slasUnder otherSla_mem).1
    exact ⟨root, otherRoot, service_eq ▸ Roots.mem_toList.1 mem,
      other_eq ▸ Roots.mem_toList.1 other_mem, .inl below⟩

theorem userSlas_perm (sound : tree.WellFormed) :
    tree.userSlas.Perm (tree.nodes.agreements .leaf) := by
  -- Being in order, the report has nothing twice.
  refine (List.perm_ext_iff_of_nodup ?_ (sound.nodup_agreements .leaf)).2 fun sla =>
    sound.mem_userSlas
  refine sound.sorted_userSlas.imp ?_
  rintro sla _ before rfl
  exact ReportedBefore.irrefl tree sla before

/-! ## Rates -/

/-- What is left of a node's committed rate and what its children hold make it up; without an agreement
there is nothing of either. -/
theorem budget_eq (sound : tree.WellFormed) (found : tree.nodes.find? id = some node) :
    node.remaining + tree.nodes.childrenShare id = node.cir := by
  by_cases bound : node.configured = true
  · exact sound.balanced id node found bound
  · rw [Bool.not_eq_true] at bound
    rw [sound.childrenShare_eq_zero (sound.childless_of_vacant found bound),
      sound.vacant id node found bound]
    rfl

theorem nodup_nodes (sound : tree.WellFormed) (kind : NodeKind) : (tree.nodes.nodes kind).Nodup :=
  List.Nodup.of_map _ (sound.nodup_ids kind)

/-- A weight that only one node of a level has for a service adds up to what that node has. -/
theorem totalFor_single (sound : tree.WellFormed) {weight : Node → Nat}
    (mem : node ∈ tree.nodes.nodes node.kind) (alone : ∀ other ∈ tree.nodes.nodes node.kind,
      other.service = node.service → other ≠ node → weight other = 0) :
    tree.nodes.totalFor node.kind node.service weight = weight node := by
  have listed : node ∈ (tree.nodes.nodes node.kind).filter fun other =>
      other.service == node.service := List.mem_filter.2 ⟨mem, beq_self_eq_true _⟩
  rw [NodeStore.totalFor, List.sum_map_eq_nsmul_single node,
    List.count_eq_one_of_mem ((sound.nodup_nodes node.kind).filter _) listed, one_nsmul]
  intro other different other_mem
  rcases List.mem_filter.1 other_mem with ⟨other_mem, service_eq⟩
  exact alone other other_mem (beq_iff_eq.1 service_eq) different

/-- What a node holds below the nodes of a level for a service is all that it holds, if that is where its
parent is, and nothing otherwise. -/
theorem totalFor_shareUnder (sound : tree.WellFormed) {child : Node}
    (located : tree.nodes.find? id = some child) (upper : NodeKind) (service : Service) :
    tree.nodes.totalFor upper service (fun parent => child.shareUnder parent.id) =
      if child.kind.parent? = some upper ∧ child.service = service then child.cir else 0 := by
  have nothing (elsewhere : ∀ other ∈ tree.nodes.nodes upper, other.service = service →
      child.shareUnder other.id = 0) :
      tree.nodes.totalFor upper service (fun parent => child.shareUnder parent.id) = 0 := by
    rw [NodeStore.totalFor_congr elsewhere, NodeStore.totalFor_eq_totalOn,
      NodeStore.totalOn_eq_zero fun _ _ => ite_self 0]
  by_cases bound : child.configured = true
  · have place := sound.parents id child located bound
    simp only [ParentInPlace] at place
    split at place
    · next top =>
      rw [nothing fun other _ _ => Node.shareUnder_of_ne (by simp [place]), if_neg (by simp [top])]
    · next above up =>
      rcases place with ⟨parentId, parent, under, found, -, rfl, service_eq⟩
      have parent_id := (sound.placed parentId parent found).1
      -- The parent is found under its identifier, so that no other node has it.
      have apart {other : Node} {kind : NodeKind} (mem : other ∈ tree.nodes.nodes kind)
          (different : other ≠ parent) : child.shareUnder other.id = 0 := by
        apply Node.shareUnder_of_ne
        intro again
        have found_again := (sound.find?_of_mem_nodes mem).1
        rw [under, Option.some.injEq] at again
        rw [← again, found, Option.some.injEq] at found_again
        exact different found_again.symm
      by_cases here : parent.kind = upper ∧ child.service = service
      · rcases here with ⟨rfl, rfl⟩
        rw [if_pos ⟨up, rfl⟩, ← service_eq,
          sound.totalFor_single (sound.mem_nodes_of_find? found) fun _ mem _ => apart mem,
          parent_id, Node.shareUnder_of_child bound under]
      · rw [if_neg (by simpa [up] using here)]
        apply nothing
        intro other mem other_service
        apply apart mem
        rintro rfl
        exact here ⟨(sound.find?_of_mem_nodes mem).2, by rw [← service_eq, other_service]⟩
  · rw [Bool.not_eq_true] at bound
    rw [nothing fun other _ _ => Node.shareUnder_of_vacant bound other.id,
      sound.vacant id child located bound]
    exact (ite_self 0).symm

theorem heldOn_eq (sound : tree.WellFormed) (kind : NodeKind) (service : Service) :
    tree.nodes.heldOn kind service = tree.nodes.totalFor kind service Node.cir := by
  have filtered : tree.nodes.heldOn kind service = tree.nodes.totalOn kind fun node =>
      if node.configured = true ∧ node.service = service then node.cir else 0 := by
    simp [NodeStore.heldOn, NodeStore.totalOn, List.sum_map_ite, beq_eq_decide]
  rw [filtered, NodeStore.totalFor_eq_totalOn]
  apply NodeStore.totalOn_congr
  intro node mem
  by_cases bound : node.configured = true
  · simp [bound]
  · rw [Bool.not_eq_true] at bound
    have nothing : node.cir = 0 := by
      rw [sound.vacant _ node (sound.find?_of_mem_nodes mem).1 bound]
      rfl
    simp [nothing]

/-- What the nodes of a level for a service have not promised and what the nodes below them hold make up
what they hold themselves. -/
theorem level_balanced (sound : tree.WellFormed) {upper lower : NodeKind}
    (below : upper.child? = some lower) (service : Service) :
    tree.nodes.totalFor upper service Node.remaining + tree.nodes.heldOn lower service =
      tree.nodes.heldOn upper service := by
  -- Of the three levels that children are looked for on, only the one below has any.
  have share_on (kind : NodeKind) :
      tree.nodes.totalFor upper service (fun node =>
          tree.nodes.totalOn kind (Node.shareUnder node.id)) =
        if kind = lower then tree.nodes.heldOn lower service else 0 := by
    have level : kind.parent? = some upper ↔ kind = lower := by
      rw [← NodeKind.child?_eq_some, below, Option.some.injEq, eq_comm]
    rw [NodeStore.totalFor_totalOn]
    split
    · next here =>
      subst here
      rw [sound.heldOn_eq, NodeStore.totalFor_eq_totalOn]
      apply NodeStore.totalOn_congr
      intro child mem
      rcases sound.find?_of_mem_nodes mem with ⟨located, kind_eq⟩
      simp [sound.totalFor_shareUnder located, kind_eq, level]
    · next elsewhere =>
      apply NodeStore.totalOn_eq_zero
      intro child mem
      rcases sound.find?_of_mem_nodes mem with ⟨located, kind_eq⟩
      simp [sound.totalFor_shareUnder located, kind_eq, level, elsewhere]
  have shares : tree.nodes.totalFor upper service (fun node => tree.nodes.childrenShare node.id) =
      tree.nodes.heldOn lower service := by
    simp only [NodeStore.childrenShare_eq, NodeStore.totalFor_add, share_on]
    cases lower <;> simp
  rw [← shares, ← NodeStore.totalFor_add, sound.heldOn_eq]
  apply NodeStore.totalFor_congr
  intro node mem _
  exact sound.budget_eq (sound.find?_of_mem_nodes mem).1

/-- A service has one root, which holds all that is held on its level. -/
theorem heldOn_root (sound : tree.WellFormed) {root : NodeId}
    (registered : tree.roots.id? service = some root) (found : tree.nodes.find? root = some node) :
    tree.nodes.heldOn .root service = node.cir := by
  rcases sound.rooted service root registered with ⟨top, located, level, service_eq⟩
  rw [found, Option.some.injEq] at located
  subst located
  have mem := sound.mem_nodes_of_find? found
  rw [sound.heldOn_eq, ← level, ← service_eq]
  apply sound.totalFor_single mem
  intro other other_mem other_service different
  rcases sound.find?_of_mem_nodes other_mem with ⟨other_found, other_level⟩
  have again := sound.registered _ other other_found (other_level.trans level)
  rw [other_service, service_eq, registered, Option.some.injEq] at again
  rw [← again, found, Option.some.injEq] at other_found
  exact absurd other_found.symm different

/-- What the clusters of a service hold is within the committed rate of its root, and that within the
largest rate of the service. -/
theorem held_bounds (sound : tree.WellFormed) {root : NodeId}
    (registered : tree.roots.id? service = some root) (found : tree.nodes.find? root = some node) :
    tree.nodes.heldOn .cluster service ≤ node.cir ∧ node.cir ≤ tree.profile.serviceMax service := by
  constructor
  · have balanced := sound.level_balanced (rfl : NodeKind.root.child? = some .cluster) service
    rw [sound.heldOn_root registered found] at balanced
    omega
  · rcases sound.rooted service root registered with ⟨top, located, -, service_eq⟩
    rw [found, Option.some.injEq] at located
    subst located
    by_cases bound : node.configured = true
    · rw [← service_eq]
      exact (sound.cir_bounds found bound).1
    · rw [Bool.not_eq_true] at bound
      rw [sound.vacant root node found bound]
      exact Nat.zero_le _

/-- A sum that is cut off at the width of a word is the sum itself if that fits. -/
theorem foldl_saturate {nodes : List Node} {start : Nat}
    (fits : start + (nodes.map Node.remaining).sum ≤ Word.max32) :
    nodes.foldl (fun sum node => Word.saturate 32 (sum + node.remaining)) start =
      start + (nodes.map Node.remaining).sum := by
  induction nodes generalizing start with
  | nil => rfl
  | cons node rest ih =>
      rw [List.map_cons, List.sum_cons, ← Nat.add_assoc] at fits ⊢
      have kept : Word.saturate 32 (start + node.remaining) = start + node.remaining := by
        have below : start + node.remaining ≤ Word.size 32 - 1 :=
          (Nat.le_add_right _ _).trans fits
        exact Nat.min_eq_left below
      rw [List.foldl_cons, kept, ih fits]

theorem availableRate_eq (sound : tree.WellFormed) {root : NodeId}
    (registered : tree.roots.id? service = some root) (found : tree.nodes.find? root = some node) :
    (tree.serviceCapability service).availableRate =
      tree.nodes.totalFor .cluster service Node.remaining := by
  have ceiling := tree.profile.serviceMax_lt service
  have balanced := sound.level_balanced (rfl : NodeKind.cluster.child? = some .leaf) service
  have bounds := sound.held_bounds registered found
  have fits : tree.nodes.totalFor .cluster service Node.remaining ≤ Word.max32 := by
    simp only [Word.max32]
    omega
  rw [NodeStore.totalFor, ← Nat.zero_add (List.sum _)] at fits ⊢
  exact foldl_saturate fits

theorem availableRate_le_maxRate (sound : tree.WellFormed) {root : NodeId}
    (registered : tree.roots.id? service = some root) (found : tree.nodes.find? root = some node) :
    (tree.serviceCapability service).availableRate ≤ (tree.serviceCapability service).maxRate := by
  have balanced := sound.level_balanced (rfl : NodeKind.cluster.child? = some .leaf) service
  have bounds := sound.held_bounds registered found
  have exact_rate := sound.availableRate_eq registered found
  simp only [serviceCapability] at exact_rate ⊢
  split
  · next none_there =>
    rw [List.isEmpty_iff.1 none_there]
    exact Nat.zero_le _
  · omega

end WellFormed

theorem service?_capabilities {root : NodeId} (registered : tree.roots.id? service = some root) :
    tree.capabilities.service? service = some (tree.serviceCapability service) := by
  simp only [Capabilities.service?, capabilities, List.find?_map]
  cases located : tree.roots.toList.find? ((fun entry => entry.service == service) ∘
      fun entry => tree.serviceCapability entry.1) with
  | none =>
      have absent := List.find?_eq_none.1 located _ (Roots.mem_toList.2 registered)
      simp [serviceCapability] at absent
  | some entry =>
      have same := List.find?_some located
      rw [Function.comp_apply, beq_iff_eq] at same
      rw [Option.map_some, show entry.1 = service from same]

/-- Whether the report of agreements has that of every configured leaf once, by the identifiers of the roots
and then of the leaves, and all counts of them agree. -/
structure ReportsAgreements (tree : Tree) : Prop where
  each_once : tree.userSlas.Perm (tree.nodes.agreements .leaf)
  ordered : tree.userSlas.Pairwise tree.ReportedBefore
  length_eq : tree.userSlas.length =
    (tree.nodes.nodes .leaf).countP Node.configured
  census_eq : tree.userSlas.length = tree.census.slas.leaf
  used_eq : tree.userSlas.length = tree.capabilities.usedSlas

/-- Whether the report of capabilities says of a service what its clusters have left, with nothing cut
off. -/
structure ReportsRates (tree : Tree) (service : Service) (entry : ServiceCapability) (root : Node) :
    Prop where
  exactly : entry.availableRate =
    (((tree.nodes.nodes .cluster).filter fun node => node.service == service).map
      Node.remaining).sum
  balanced : entry.availableRate + tree.nodes.heldOn .leaf service =
    tree.nodes.heldOn .cluster service
  held_le : tree.nodes.heldOn .cluster service ≤ root.cir
  root_le : root.cir ≤ tree.profile.serviceMax service
  available_le : entry.availableRate ≤ entry.maxRate

theorem WellFormed.reportsAgreements (sound : tree.WellFormed) : tree.ReportsAgreements := by
  have counted : tree.userSlas.length = tree.census.slas.leaf :=
    sound.userSlas_perm.length_eq.trans (sound.length_agreements .leaf)
  exact ⟨sound.userSlas_perm, sound.sorted_userSlas, counted.trans (sound.counted .leaf).2, counted,
    counted⟩

theorem WellFormed.exists_reportsRates (sound : tree.WellFormed)
    (enabled : service ∈ tree.config.services) :
    ∃ entry root top, tree.capabilities.service? service = some entry ∧
      tree.roots.id? service = some root ∧ tree.nodes.find? root = some top ∧
      tree.ReportsRates service entry top := by
  rcases Option.isSome_iff_exists.1 ((sound.enabled service).2 enabled) with ⟨root, registered⟩
  rcases sound.rooted service root registered with ⟨top, found, -, -⟩
  have exactly := sound.availableRate_eq registered found
  rcases sound.held_bounds registered found with ⟨held_le, root_le⟩
  refine ⟨_, root, top, service?_capabilities registered, registered, found, exactly, ?_, held_le,
    root_le, sound.availableRate_le_maxRate registered found⟩
  rw [exactly]
  exact sound.level_balanced rfl service

end Tree

namespace Limiter

variable {δ : Type} [RegisterAccess δ] [BlockMemory δ] [AdminTransport δ]

/-- Whatever the device answers, a limiter reports the agreement of every configured leaf once and in order,
and for every enabled service exactly what its clusters have left. -/
theorem reports_are_exact {profile : Profile} {config : DeviceConfig} {initial : δ → Prop}
    {moves : δ → δ → Prop} {limiter : Limiter δ}
    (reached : Reachable profile config initial moves limiter) :
    limiter.tree.ReportsAgreements ∧
      ∀ service ∈ config.services, ∃ entry root top,
        limiter.tree.capabilities.service? service = some entry ∧
        limiter.tree.roots.id? service = some root ∧
        limiter.tree.nodes.find? root = some top ∧
        limiter.tree.ReportsRates service entry top := by
  have sound := reached.wellFormed
  refine ⟨sound.reportsAgreements, ?_⟩
  intro service enabled
  rw [← reached.constants.2] at enabled
  exact sound.exists_reportsRates enabled

/-- In a run on a bench with a configured leaf, the report of agreements is not empty and that of
capabilities has the leaf's service. -/
theorem reports_are_exact_on_bench :
    ∃ limiter, Reachable Profile.gen4 smallConfig (Eq Bench.fresh) (fun _ _ => False) limiter ∧
      limiter.tree.ReportsAgreements ∧ limiter.tree.userSlas ≠ [] ∧
      ∃ entry root top, limiter.tree.capabilities.service? .sym = some entry ∧
        limiter.tree.roots.id? .sym = some root ∧ limiter.tree.nodes.find? root = some top ∧
        limiter.tree.ReportsRates .sym entry top := by
  rcases exists_reachable rfl with ⟨limiter, reached, -, leaf, found, bound⟩
  rcases reports_are_exact reached with ⟨agreements, rates⟩
  refine ⟨limiter, reached, agreements, ?_, rates .sym (by decide)⟩
  have held : limiter.tree.nodes.slot .leaf 0 = some leaf := found
  have positive := List.countP_pos_iff.2 ⟨leaf, NodeStore.mem_nodes.2 ⟨0, held⟩, bound⟩
  rw [← agreements.length_eq] at positive
  exact List.ne_nil_of_length_pos positive

end Limiter

end RateTree
