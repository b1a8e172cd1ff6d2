import RateTree.Proofs.FirmwareAgreement
import RateTree.Proofs.TokenWorth

/-!
# Committed tokens

On a device whose token functions are exact, the firmware never holds more committed tokens for the
children of a node, in any dimension, than for the node itself: what the children are promised stays
within the node's committed rate, and rates are worth no more on their own than together.
-/

namespace RateTree

namespace NodeStore

/-- The configured nodes under a parent. -/
def childrenOf (store : NodeStore) (parent : NodeId) : List Node :=
  store.allNodes.filter fun node => node.configured && node.parent == some parent

end NodeStore

/-- The tokens of several rates in a dimension, added up. -/
def TokenSet.total (parts : List TokenSet) (dimension : Dimension) : Nat :=
  (parts.map fun part => (part.count dimension).toNat).sum

/-- The committed tokens that the firmware holds for a node. -/
def Firmware.committed? (firmware : Firmware) (id : NodeId) : Option TokenSet :=
  (firmware.configured.lookup id.entryKey).map fun parameters => parameters.tokens.committed

namespace Tree

variable {tree : Tree} {id : NodeId} {node : Node}

theorem WellFormed.mem_childrenOf (sound : tree.WellFormed) :
    node ∈ tree.nodes.childrenOf id ↔
      tree.nodes.find? node.id = some node ∧ node.configured = true ∧ node.parent = some id := by
  simp only [NodeStore.childrenOf, NodeStore.allNodes, List.mem_filter, List.mem_flatMap,
    Bool.and_eq_true, beq_iff_eq]
  constructor
  · rintro ⟨⟨kind, -, mem⟩, bound, under⟩
    exact ⟨(sound.find?_of_mem_nodes mem).1, bound, under⟩
  · rintro ⟨found, bound, under⟩
    have listed : node.kind ∈ NodeKind.all := by cases node.kind <;> decide
    exact ⟨⟨node.kind, listed, sound.mem_nodes_of_find? found⟩, bound, under⟩

/-- A child is of its parent's service. -/
theorem WellFormed.service_of_child (sound : tree.WellFormed) {child : Node}
    (found : tree.nodes.find? id = some node) (mem : child ∈ tree.nodes.childrenOf id) :
    child.service = node.service := by
  rcases sound.mem_childrenOf.1 mem with ⟨child_found, bound, under⟩
  have above := sound.parents _ child child_found bound
  simp only [ParentInPlace] at above
  split at above
  · rw [under] at above
    contradiction
  · rcases above with ⟨parent, parentNode, parent_eq, located, -, -, service_eq⟩
    rw [under, Option.some.injEq] at parent_eq
    subst parent_eq
    rw [found, Option.some.injEq] at located
    rw [located]
    exact service_eq.symm

/-- A firmware that describes a tree holds the tokens of each configured node's committed rate. -/
theorem DescribedBy.exists_committed {firmware : Firmware}
    (described : tree.DescribedBy firmware.configured) (sound : tree.WellFormed)
    (found : tree.nodes.find? id = some node) (bound : node.configured = true) :
    ∃ tokens, firmware.committed? id = some tokens ∧ ∀ dimension,
      tree.profile.tokensFor node.service dimension node.cir = .ok (tokens.count dimension) := by
  rcases sound.exists_owns found bound with ⟨sla, rings, carried, -, owns⟩
  rcases described.held id sla rings owns with ⟨tokens, computed, entry⟩
  refine ⟨tokens.committed, by simp [Firmware.committed?, entry], ?_⟩
  intro dimension
  rw [← (sound.carries_of_sla found carried).service_eq]
  simp only [Node.cir, carried]
  exact Tokens.committed_of_ofRates computed dimension

/-- A firmware that describes a tree holds tokens for every one of some configured nodes of a service,
and no more of them than their committed rates are worth. -/
theorem DescribedBy.exists_parts {firmware : Firmware} {service : Service}
    (described : tree.DescribedBy firmware.configured) (sound : tree.WellFormed)
    {children : List Node}
    (placed : ∀ child ∈ children, tree.nodes.find? child.id = some child ∧
      child.configured = true ∧ child.service = service) :
    ∃ parts : List TokenSet,
      children.map (fun child => firmware.committed? child.id) = parts.map some ∧
      ∀ dimension, TokenSet.total parts dimension ≤
        ((children.map Node.cir).map (tree.profile.worth service dimension)).sum := by
  induction children with
  | nil => exact ⟨[], rfl, by simp [TokenSet.total]⟩
  | cons child rest ih =>
      rcases placed child (by simp) with ⟨found, bound, service_eq⟩
      rcases described.exists_committed sound found bound with ⟨part, held, computed⟩
      rcases ih fun other mem => placed other (by simp [mem]) with ⟨parts, others_held, within⟩
      refine ⟨part :: parts, by simp [held, others_held], ?_⟩
      intro dimension
      have first := Profile.tokensFor_le_worth (computed dimension)
      have others := within dimension
      rw [service_eq] at first
      simp only [TokenSet.total, List.map_cons, List.sum_cons] at others ⊢
      omega

end Tree

namespace Limiter

open Bench (Direct)

/-- Whether the firmware holds committed tokens for a node and for each of its children, and in no
dimension more for the children together than for the node. -/
def CommitsWithin (firmware : Firmware) (nodes : NodeStore) (id : NodeId) : Prop :=
  ∃ (own : TokenSet) (parts : List TokenSet), firmware.committed? id = some own ∧
    (nodes.childrenOf id).map (fun child => firmware.committed? child.id) = parts.map some ∧
    ∀ dimension, TokenSet.total parts dimension ≤ (own.count dimension).toNat

theorem commitsWithin {tree : Tree} {firmware : Firmware} {id : NodeId} {node : Node}
    (sound : tree.WellFormed) (described : tree.DescribedBy firmware.configured)
    (unclipped : tree.profile.Unclipped) (found : tree.nodes.find? id = some node)
    (bound : node.configured = true) : CommitsWithin firmware tree.nodes id := by
  rcases described.exists_committed sound found bound with ⟨own, held, computed⟩
  have placed : ∀ child ∈ tree.nodes.childrenOf id, tree.nodes.find? child.id = some child ∧
      child.configured = true ∧ child.service = node.service := by
    intro child mem
    rcases sound.mem_childrenOf.1 mem with ⟨child_found, child_bound, -⟩
    exact ⟨child_found, child_bound, sound.service_of_child found mem⟩
  rcases described.exists_parts sound placed with ⟨parts, parts_held, within⟩
  refine ⟨own, parts, held, parts_held, ?_⟩
  intro dimension
  rcases sound.cir_bounds found bound with ⟨ceiling, covered⟩
  have super := tree.profile.worth_superadditive node.service dimension
  calc TokenSet.total parts dimension
      ≤ _ := within dimension
    _ ≤ tree.profile.worth node.service dimension (tree.nodes.childrenShare id) := super.sum_le _
    _ ≤ tree.profile.worth node.service dimension node.cir := super.mono covered
    _ = (own.count dimension).toNat :=
      (unclipped.tokensFor_eq_worth (computed dimension) ceiling).symm

/-- Tokens are never overcommitted: in every run on a bench within direct reach whose token functions
are exact, as they are with the constants of the fourth generation, the committed tokens that the
firmware holds for the children of a configured node add up, in each dimension, to no more than those
it holds for the node. -/
theorem tokens_never_overcommitted :
    (Profile.gen4.validate = .ok () ∧ Profile.gen4.Unclipped) ∧
    ∀ (profile : Profile) (config : DeviceConfig) (limiter : Limiter Bench), profile.Unclipped →
      Reachable profile config Direct Injects limiter →
      ∀ id node, limiter.tree.nodes.find? id = some node → node.configured = true →
        CommitsWithin limiter.device.firmware limiter.tree.nodes id := by
  refine ⟨⟨rfl, Profile.unclipped_gen4⟩, ?_⟩
  intro profile config limiter unclipped reached id node found bound
  rw [← reached.constants.1] at unclipped
  exact commitsWithin reached.wellFormed reached.agrees_always.described unclipped found bound

/-- In a run on a bench, the firmware holds the tokens of the first leaf within those of its cluster. -/
theorem tokens_never_overcommitted_on_bench :
    ∃ limiter : Limiter Bench, ∃ cluster leaf,
      Reachable Profile.gen4 smallConfig Direct Injects limiter ∧
      leaf ∈ limiter.tree.nodes.childrenOf cluster ∧
      CommitsWithin limiter.device.firmware limiter.tree.nodes cluster := by
  have direct : Direct Bench.fresh := ⟨rfl, rfl, rfl⟩
  rcases @exists_reachable Direct Injects direct with ⟨limiter, reached, -, leaf, found, bound⟩
  have sound := reached.wellFormed
  rcases sound.placed _ leaf found with ⟨id_eq, known⟩
  have place := sound.parents _ leaf found bound
  have level : leaf.kind = .leaf := Option.some.inj (known.symm.trans rfl)
  simp only [Tree.ParentInPlace, level, NodeKind.parent?] at place
  rcases place with ⟨cluster, node, under, located, configured, -⟩
  rw [← id_eq] at found
  exact ⟨limiter, cluster, leaf, reached, sound.mem_childrenOf.2 ⟨found, bound, under⟩,
    tokens_never_overcommitted.2 Profile.gen4 smallConfig limiter Profile.unclipped_gen4 reached
      cluster node located configured⟩

end Limiter

end RateTree
