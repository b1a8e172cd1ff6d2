import RateTree.Proofs.BenchDevice
import RateTree.Proofs.Mirror

/-!
# What the link tables say

The mirror of the tree, read off table by table: where a leaf, a cluster and a ring point to, and that
a ring feeds one leaf at most.
-/

namespace RateTree

open LinkTable (Belongs linked target unlinked)

variable {δ : Type}

/-- What the link tables of a device say of a tree. -/
structure TablesShow [DeviceView δ] (config : DeviceConfig) (tree : Tree) (device : δ) : Prop
    where
  /-- A configured leaf points to its cluster. -/
  leaf : ∀ index, index < LinkTable.leafToCluster.extent → ∀ leaf,
    tree.nodes.find? (NodeId.ofSlot .leaf index) = some leaf → leaf.configured = true →
      ∃ cluster, leaf.parent = some cluster ∧
        linkEntry device .leafToCluster index = linked cluster.index
  /-- Any other leaf points nowhere. -/
  no_leaf : ∀ index, index < LinkTable.leafToCluster.extent →
    (∀ leaf, tree.nodes.find? (NodeId.ofSlot .leaf index) = some leaf →
      leaf.configured = false) → linkEntry device .leafToCluster index = unlinked
  /-- A configured cluster points to its root. -/
  cluster : ∀ index, index < LinkTable.clusterToRoot.extent → ∀ cluster,
    tree.nodes.find? (NodeId.ofSlot .cluster index) = some cluster → cluster.configured = true →
      ∃ root, cluster.parent = some root ∧
        linkEntry device .clusterToRoot index = linked root.index
  /-- Any other cluster points nowhere. -/
  no_cluster : ∀ index, index < LinkTable.clusterToRoot.extent →
    (∀ cluster, tree.nodes.find? (NodeId.ofSlot .cluster index) = some cluster →
      cluster.configured = false) → linkEntry device .clusterToRoot index = unlinked
  /-- The rings of a configured leaf are those of its function, and they point to the leaf. -/
  ring : ∀ id leaf, tree.nodes.find? id = some leaf → leaf.kind = .leaf →
    leaf.configured = true → ∃ sla rings, leaf.sla = some sla ∧
      config.ringsFor sla.owner sla.service = .ok rings ∧
      ∀ ring ∈ rings, ring < LinkTable.ringToLeaf.extent ∧
        linkEntry device .ringToLeaf ring = linked id.index
  /-- A ring that no configured leaf owns points nowhere. -/
  no_ring : ∀ ring, ring < LinkTable.ringToLeaf.extent →
    (∀ id leaf sla rings, tree.nodes.find? id = some leaf → leaf.kind = .leaf →
      leaf.configured = true → leaf.sla = some sla →
      config.ringsFor sla.owner sla.service = .ok rings → ring ∉ rings) →
    linkEntry device .ringToLeaf ring = unlinked
  /-- No ring belongs to two configured leaves. -/
  apart : ∀ id other leaf otherLeaf sla otherSla rings owned, id ≠ other →
    tree.nodes.find? id = some leaf → tree.nodes.find? other = some otherLeaf →
    leaf.kind = .leaf → otherLeaf.kind = .leaf → leaf.sla = some sla → otherLeaf.sla = some otherSla →
    config.ringsFor sla.owner sla.service = .ok rings →
    config.ringsFor otherSla.owner otherSla.service = .ok owned →
    ∀ ring ∈ rings, ring ∉ owned

namespace Mirrors

variable [DeviceView δ] {tree : Tree} {device : δ}

/-- The entry of a configured leaf or cluster points to its parent. -/
theorem entry_of_configured (mirrors : Mirrors tree device) (sound : tree.WellFormed)
    {kind : NodeKind} {index : Nat} {table : LinkTable} {node : Node}
    (found : tree.nodes.find? (NodeId.ofSlot kind index) = some node)
    (bound : node.configured = true)
    (own : ∀ rings, Belongs (NodeId.ofSlot kind index) rings table index)
    (points : ∀ id above, target id above table = above) :
    ∃ parent, node.parent = some parent ∧
      linkEntry device table index = linked parent.index := by
  rcases sound.exists_owns found bound with ⟨sla, rings, -, parent_eq, owns⟩
  rcases mirrors.held _ sla rings owns table index (own rings) with ⟨above, under, entry⟩
  rw [points] at entry
  exact ⟨above, by rw [← parent_eq, under], entry⟩

/-- The entry of a leaf or cluster that is not configured is clear. -/
theorem entry_of_vacant (mirrors : Mirrors tree device) {kind : NodeKind} {table : LinkTable}
    {index : Nat} (inside : index < table.extent)
    (own : ∀ id rings, Belongs id rings table index → id.kind? = some kind ∧ index = id.index)
    (vacant : ∀ node, tree.nodes.find? (NodeId.ofSlot kind index) = some node →
      node.configured = false) : linkEntry device table index = unlinked := by
  apply mirrors.free table index inside
  rintro id sla rings ⟨node, found, bound, -⟩ belongs
  rcases own id rings belongs with ⟨known, rfl⟩
  rw [← NodeId.ofSlot_index known] at found
  rw [vacant node found] at bound
  contradiction

/-- Tables that mirror a tree show it. -/
theorem tablesShow (mirrors : Mirrors tree device) (sound : tree.WellFormed) :
    TablesShow tree.config tree device where
  leaf index inside leaf found bound := by
    have small : index < 256 := Nat.lt_trans inside (by decide)
    have own (rings : List Nat) : Belongs (NodeId.ofSlot .leaf index) rings .leafToCluster index :=
      ⟨NodeId.kind?_ofSlot _ _, (NodeId.index_ofSlot .leaf small).symm⟩
    exact mirrors.entry_of_configured sound found bound own fun _ _ => rfl
  no_leaf index inside := mirrors.entry_of_vacant inside fun _ _ belongs => belongs
  cluster index inside cluster found bound := by
    have small : index < 256 := Nat.lt_trans inside (by decide)
    have own (rings : List Nat) :
        Belongs (NodeId.ofSlot .cluster index) rings .clusterToRoot index :=
      ⟨NodeId.kind?_ofSlot _ _, (NodeId.index_ofSlot .cluster small).symm⟩
    exact mirrors.entry_of_configured sound found bound own fun _ _ => rfl
  no_cluster index inside := mirrors.entry_of_vacant inside fun _ _ belongs => belongs
  ring id leaf found level bound := by
    rcases sound.exists_owns found bound with ⟨sla, rings, carried, -, owns⟩
    have known : id.kind? = some .leaf := by rw [(sound.placed id leaf found).2, level]
    refine ⟨sla, rings, carried, ?_, ?_⟩
    · rcases owns with ⟨_, _, _, _, rings_eq⟩
      rw [← sound.ringsOf_leaf found level carried, rings_eq]
    · intro ring mem
      refine ⟨sound.fits owns .ringToLeaf ring ⟨known, mem⟩, ?_⟩
      rcases mirrors.held id sla rings owns .ringToLeaf ring ⟨known, mem⟩ with ⟨_, _, entry⟩
      exact entry
  no_ring ring inside unowned := by
    apply mirrors.free .ringToLeaf ring inside
    rintro id sla rings ⟨leaf, found, bound, carried, rings_eq⟩ ⟨known, mem⟩
    have level : leaf.kind = .leaf := by
      have placed := (sound.placed id leaf found).2
      rw [known, Option.some.injEq] at placed
      exact placed.symm
    rw [sound.ringsOf_leaf found level carried] at rings_eq
    exact unowned id leaf sla rings found level bound carried rings_eq mem
  apart id other leaf otherLeaf sla otherSla rings owned different found other_found level
      other_level carried other_carried rings_eq owned_eq := by
    rw [← sound.ringsOf_leaf found level carried] at rings_eq
    rw [← sound.ringsOf_leaf other_found other_level other_carried] at owned_eq
    exact sound.apart id other leaf otherLeaf sla otherSla different found other_found carried
      other_carried rings owned rings_eq owned_eq

end Mirrors

namespace Limiter

variable [LinkedDevice δ]

/-- In every run on a device that starts with clear link tables, the tables show the tree for as long
as the device is intact. -/
theorem link_tables_show_tree {profile : Profile} {config : DeviceConfig} {limiter : Limiter δ}
    (reached : Reachable profile config LinksClear LinksStay limiter)
    (still : intact limiter.device) : TablesShow config limiter.tree limiter.device := by
  have shown := (reached.mirrors still).tablesShow reached.wellFormed
  rwa [reached.constants.2] at shown

omit [LinkedDevice δ] in
/-- In a run on a bench, the first leaf is linked. -/
theorem link_tables_show_tree_on_bench :
    ∃ limiter : Limiter Bench, Reachable Profile.gen4 smallConfig LinksClear LinksStay limiter ∧
      TablesShow smallConfig limiter.tree limiter.device ∧
      ∃ cluster : NodeId, linkEntry limiter.device .leafToCluster 0 = linked cluster.index := by
  have clean : LinksClear Bench.fresh := fun _ _ _ => rfl
  rcases exists_reachable clean with ⟨limiter, reached, room, leaf, found, bound⟩
  have shown := link_tables_show_tree reached room
  rcases shown.leaf 0 (by decide) leaf found bound with ⟨cluster, -, entry⟩
  exact ⟨limiter, reached, shown, cluster, entry⟩

end Limiter

end RateTree
