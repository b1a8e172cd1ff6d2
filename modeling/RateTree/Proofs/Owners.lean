import RateTree.Proofs.Allocation
import RateTree.Proofs.Commits.Create
import RateTree.Proofs.Commits.Delete
import RateTree.Proofs.Commits.Update
import RateTree.Proofs.Links
import RateTree.Proofs.Rings

/-!
# Owners of link entries

A configured node owns its agreement and the rings the agreement takes, and through them entries of
the link tables. In a well-formed tree no entry has two owners. A commit changes what one node owns
and nothing else; nodes that come and go own nothing.
-/

namespace RateTree

open LinkTable (Belongs Fits)

namespace Tree

/-- Whether a configured node has an agreement with the given rings. -/
def Owns (tree : Tree) (id : NodeId) (sla : Sla) (rings : List Nat) : Prop :=
  ∃ node, tree.nodes.find? id = some node ∧ node.configured = true ∧ node.sla = some sla ∧
    tree.ringsOf sla = .ok rings

variable {tree after : Tree} {id other : NodeId} {sla otherSla : Sla} {rings owned : List Nat}

theorem Owns.unique (owns : tree.Owns id sla rings) (again : tree.Owns id otherSla owned) :
    sla = otherSla ∧ rings = owned := by
  rcases owns with ⟨node, found, -, carried, known⟩
  rcases again with ⟨same, found_again, -, carried_again, known_again⟩
  rw [found, Option.some.injEq] at found_again
  subst found_again
  rw [carried, Option.some.injEq] at carried_again
  subst carried_again
  rw [known, Except.ok.injEq] at known_again
  exact ⟨rfl, known_again⟩

theorem ringsOf_congr (config_eq : after.config = tree.config) (sla : Sla) :
    after.ringsOf sla = tree.ringsOf sla := by
  simp only [ringsOf, config_eq]

/-- The rings of an agreement fit a parameter block. -/
theorem few_of_ringsOf (known : tree.ringsOf sla = .ok rings) : rings.length ≤ maxRings := by
  simp only [ringsOf] at known
  split at known
  · have few := DeviceConfig.length_le_of_ringsFor known
    exact Nat.le_trans few (by decide)
  · cases known
    exact Nat.zero_le _
  · cases known
    exact Nat.zero_le _

namespace WellFormed

theorem exists_owns (sound : tree.WellFormed) {node : Node}
    (found : tree.nodes.find? id = some node) (bound : node.configured = true) :
    ∃ sla rings, node.sla = some sla ∧ sla.parent = node.parent ∧ tree.Owns id sla rings := by
  rcases sound.bound id node found bound with ⟨sla, carried, carries⟩
  rcases carries.rings with ⟨rings, known⟩
  exact ⟨sla, rings, carried, carries.parent_eq, node, found, bound, carried, known⟩

theorem carries_of_sla (sound : tree.WellFormed) {node : Node}
    (found : tree.nodes.find? id = some node) (carried : node.sla = some sla) :
    tree.Carries node sla := by
  rcases sound.bound id node found (sound.configured_of_sla found carried) with
    ⟨agreement, held, carries⟩
  rw [carried, Option.some.injEq] at held
  subst held
  exact carries

/-- What an owner's identifier and agreement say about it. -/
theorem carries_of_owns (sound : tree.WellFormed) (owns : tree.Owns id sla rings) :
    ∃ node, tree.nodes.find? id = some node ∧ node.configured = true ∧ id.kind? = some node.kind ∧
      tree.Carries node sla := by
  rcases owns with ⟨node, found, bound, carried, -⟩
  exact ⟨node, found, bound, (sound.placed id node found).2, sound.carries_of_sla found carried⟩

theorem kind?_of_owns (sound : tree.WellFormed) (owns : tree.Owns id sla rings) :
    ∃ kind, id.kind? = some kind := by
  rcases sound.carries_of_owns owns with ⟨node, -, -, known, -⟩
  exact ⟨node.kind, known⟩

theorem index_lt_capacity (sound : tree.WellFormed) {node : Node}
    (found : tree.nodes.find? id = some node) : id.index < node.kind.capacity := by
  have placed := sound.placed id node found
  rw [NodeStore.find?_eq_slot placed.2] at found
  have below := NodeStore.lt_length_of_slot found
  rwa [sound.sized] at below

/-- The rings of a leaf's agreement are those of its function. -/
theorem ringsOf_leaf (sound : tree.WellFormed) {leaf : Node}
    (found : tree.nodes.find? id = some leaf) (level : leaf.kind = .leaf)
    (carried : leaf.sla = some sla) :
    tree.ringsOf sla = tree.config.ringsFor sla.owner sla.service := by
  have kind_eq := (sound.carries_of_sla found carried).kind_eq
  rw [level] at kind_eq
  simp only [ringsOf, kind_eq]

/-- The entries of an owner are in the tables. -/
theorem fits (sound : tree.WellFormed) (owns : tree.Owns id sla rings) : Fits id rings := by
  rcases sound.carries_of_owns owns with ⟨node, found, bound, known, carries⟩
  have below := sound.index_lt_capacity found
  intro table index belongs
  cases table with
  | ringToLeaf =>
      have enabled := (sound.enabled node.service).1 (sound.served id node found)
      have level : sla.kind = .leaf := by
        rw [carries.kind_eq, ← Option.some.injEq, ← known, belongs.1]
      rcases owns with ⟨_, _, _, _, rings_eq⟩
      simp only [ringsOf, level] at rings_eq
      have small := DeviceConfig.ring_lt_of_ringsFor sound.config_valid enabled rings_eq belongs.2
      exact Nat.lt_trans small (by decide)
  | leafToCluster =>
      rcases belongs with ⟨leaf, rfl⟩
      rw [known, Option.some.injEq] at leaf
      rw [leaf] at below
      exact below
  | clusterToRoot =>
      rcases belongs with ⟨cluster, rfl⟩
      rw [known, Option.some.injEq] at cluster
      rw [cluster] at below
      exact below

theorem small_of_owns (sound : tree.WellFormed) (owns : tree.Owns id sla rings) :
    ∀ ring ∈ rings, ring < 2 ^ 16 := by
  rcases sound.carries_of_owns owns with ⟨node, found, bound, known, carries⟩
  intro ring mem
  by_cases leaf : node.kind = .leaf
  · rw [leaf] at known
    exact Nat.lt_trans (sound.fits owns .ringToLeaf ring ⟨known, mem⟩) (by decide)
  · rcases owns with ⟨_, _, _, _, rings_eq⟩
    rw [← carries.kind_eq] at leaf
    exact absurd mem (not_mem_ringsOf leaf rings_eq)

/-- No entry has two owners. -/
theorem owner_unique (sound : tree.WellFormed) (owns : tree.Owns id sla rings)
    (other_owns : tree.Owns other otherSla owned) {table : LinkTable} {index : Nat}
    (belongs : Belongs id rings table index) (other_belongs : Belongs other owned table index) :
    id = other := by
  by_contra different
  cases table with
  | ringToLeaf =>
      rcases owns with ⟨node, found, -, carried, rings_eq⟩
      rcases other_owns with ⟨otherNode, other_found, -, other_carried, owned_eq⟩
      exact sound.apart id other node otherNode sla otherSla different found other_found carried
        other_carried rings owned rings_eq owned_eq index belongs.2 other_belongs.2
  | leafToCluster =>
      exact different (NodeId.eq_of_kind?_of_index belongs.1 other_belongs.1
        (belongs.2.symm.trans other_belongs.2))
  | clusterToRoot =>
      exact different (NodeId.eq_of_kind?_of_index belongs.1 other_belongs.1
        (belongs.2.symm.trans other_belongs.2))

end WellFormed

/-! ## What changes the owners -/

/-- What a refilled slot leaves of the owners. -/
theorem owns_iff_of_refilled {kind : NodeKind} {content : Option Node}
    (refilled : tree.nodes.Refilled after.nodes id kind content)
    (config_eq : after.config = tree.config) :
    after.Owns other sla rings ↔ tree.Owns other sla rings := by
  simp only [Owns, ringsOf_congr config_eq]
  apply exists_congr
  intro node
  constructor
  · rintro ⟨found, bound, carried⟩
    exact ⟨(refilled.configured bound).1 found, bound, carried⟩
  · rintro ⟨found, bound, carried⟩
    exact ⟨(refilled.configured bound).2 found, bound, carried⟩

/-- What a rebound node leaves of the owners. -/
theorem owns_iff_of_rebound {old new : Node} {remainder : NodeId → Node → Nat}
    (rebound : tree.nodes.Rebound after.nodes id old new remainder)
    (config_eq : after.config = tree.config) :
    after.Owns other sla rings ↔
      if other = id then new.configured = true ∧ new.sla = some sla ∧ tree.ringsOf sla = .ok rings
      else tree.Owns other sla rings := by
  simp only [Owns, ringsOf_congr config_eq, rebound.found]
  split
  · simp
  · constructor
    · rintro ⟨node, found, bound, carried⟩
      rcases Option.map_eq_some_iff.1 found with ⟨before, was, rfl⟩
      exact ⟨before, was, bound, carried⟩
    · rintro ⟨before, was, bound, carried⟩
      exact ⟨_, Option.map_eq_some_iff.2 ⟨before, was, rfl⟩, bound, carried⟩

/-- A new agreement makes its node an owner. -/
theorem CreatePlan.Accepted.owns_iff {request : Sla} {plan : CreatePlan} {node : Node}
    (accepted : plan.Accepted tree request node) (sound : tree.WellFormed) :
    (tree.commitCreate plan).Owns other sla rings ↔
      if other = plan.sla.node then sla = plan.sla ∧ rings = plan.rings
      else tree.Owns other sla rings := by
  rcases accepted.rebound sound with ⟨remainder, rebound, -⟩
  rw [owns_iff_of_rebound rebound rfl, accepted.sla_node]
  split
  · constructor
    · rintro ⟨-, carried, known⟩
      cases carried
      rw [accepted.rings, Except.ok.injEq] at known
      exact ⟨rfl, known.symm⟩
    · rintro ⟨rfl, rfl⟩
      exact ⟨rfl, rfl, accepted.rings⟩
  · rfl

theorem CreatePlan.Accepted.owns {request : Sla} {plan : CreatePlan} {node : Node}
    (accepted : plan.Accepted tree request node) (sound : tree.WellFormed) :
    (tree.commitCreate plan).Owns plan.sla.node plan.sla plan.rings := by
  rw [accepted.owns_iff sound, if_pos rfl]
  exact ⟨rfl, rfl⟩

/-- A vacant node owns nothing. -/
theorem CreatePlan.Accepted.not_owns {request : Sla} {plan : CreatePlan} {node : Node}
    (accepted : plan.Accepted tree request node) : ¬tree.Owns plan.sla.node sla rings := by
  rw [accepted.sla_node]
  rintro ⟨held, found, bound, -⟩
  rw [accepted.found, Option.some.injEq] at found
  subst found
  rw [accepted.vacant] at bound
  contradiction

/-- Whoever owned rings before is another node, and owns them still. -/
theorem CreatePlan.Accepted.still_owns {request : Sla} {plan : CreatePlan} {node : Node}
    (accepted : plan.Accepted tree request node) (sound : tree.WellFormed)
    (owns : tree.Owns other sla rings) :
    other ≠ plan.sla.node ∧ (tree.commitCreate plan).Owns other sla rings := by
  have different : other ≠ plan.sla.node := by
    rintro rfl
    exact accepted.not_owns owns
  rw [accepted.owns_iff sound, if_neg different]
  exact ⟨different, owns⟩

theorem UpdatePlan.Accepted.owns {request : Sla} {plan : UpdatePlan} {node : Node}
    (accepted : plan.Accepted tree request node) : tree.Owns plan.id plan.current plan.rings :=
  ⟨node, accepted.found, accepted.bound, accepted.current_eq, accepted.rings⟩

/-- A changed agreement keeps its rings. -/
theorem UpdatePlan.Accepted.owns_iff {request : Sla} {plan : UpdatePlan} {node : Node}
    (accepted : plan.Accepted tree request node) (sound : tree.WellFormed) :
    (tree.commitUpdate plan).Owns other sla rings ↔
      if other = plan.id then sla = plan.sla ∧ rings = plan.rings
      else tree.Owns other sla rings := by
  rcases accepted.rebound sound with ⟨remainder, rebound, -⟩
  rw [owns_iff_of_rebound rebound rfl]
  have known := accepted.ringsOf_sla.trans accepted.rings
  split
  · constructor
    · rintro ⟨-, carried, known_sla⟩
      cases carried
      rw [known, Except.ok.injEq] at known_sla
      exact ⟨rfl, known_sla.symm⟩
    · rintro ⟨rfl, rfl⟩
      exact ⟨accepted.bound, rfl, known⟩
  · rfl

theorem UpdatePlan.Accepted.owns_changed {request : Sla} {plan : UpdatePlan} {node : Node}
    (accepted : plan.Accepted tree request node) (sound : tree.WellFormed) :
    (tree.commitUpdate plan).Owns plan.id plan.sla plan.rings := by
  rw [accepted.owns_iff sound, if_pos rfl]
  exact ⟨rfl, rfl⟩

/-- Whoever owned rings before owns them still, maybe under a changed agreement. -/
theorem UpdatePlan.Accepted.still_owns {request : Sla} {plan : UpdatePlan} {node : Node}
    (accepted : plan.Accepted tree request node) (sound : tree.WellFormed)
    (owns : tree.Owns other sla rings) :
    ∃ changed, (tree.commitUpdate plan).Owns other changed rings := by
  by_cases same : other = plan.id
  · subst same
    rcases accepted.owns.unique owns with ⟨-, rfl⟩
    exact ⟨plan.sla, accepted.owns_changed sound⟩
  · refine ⟨sla, ?_⟩
    rw [accepted.owns_iff sound, if_neg same]
    exact owns

theorem DeletePlan.Accepted.owns {plan : DeletePlan} {node : Node}
    (accepted : plan.Accepted tree id node) : tree.Owns plan.id plan.sla plan.rings := by
  rw [accepted.id_eq]
  exact ⟨node, accepted.found, accepted.bound, accepted.sla_eq, accepted.rings⟩

/-- A node without its agreement owns nothing. -/
theorem DeletePlan.Accepted.owns_iff {plan : DeletePlan} {node : Node}
    (accepted : plan.Accepted tree id node) (sound : tree.WellFormed) :
    (tree.commitDelete plan).Owns other sla rings ↔ other ≠ plan.id ∧ tree.Owns other sla rings := by
  rcases accepted.rebound sound with ⟨remainder, rebound, -⟩
  rw [owns_iff_of_rebound rebound rfl, accepted.id_eq]
  split
  · next same => simp [same, Node.unbind]
  · next different => simp [different]

end Tree

end RateTree
