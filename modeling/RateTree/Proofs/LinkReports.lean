import RateTree.Proofs.RingRates
import RateTree.Report

/-!
# Listing the links

The link registers of a device are read one after the other, and each that points somewhere is listed.
Where the tables mirror a tree, what is listed are links of configured nodes, in the order of the registers,
and no link of a leaf or a cluster is left out. Of the ring table only as many registers are read as a device
has banks; a configuration may give its functions more rings than that, and the links of those are made but
not listed.
-/

namespace RateTree

open LinkTable (Belongs linked target unlinked)

/-! ## The links of a tree -/

namespace Tree

/-- The links of the configured nodes: from the rings of a leaf to it, from a leaf to its cluster, and from a
cluster to its root. -/
inductive HasLink (tree : Tree) : Link → Prop where
  | ring {id : NodeId} {leaf : Node} {sla : Sla} {rings : List Nat} {ring : Nat}
      (found : tree.nodes.find? id = some leaf) (level : leaf.kind = .leaf)
      (bound : leaf.configured = true) (carried : leaf.sla = some sla)
      (known : tree.config.ringsFor sla.owner sla.service = .ok rings) (mem : ring ∈ rings) :
      HasLink tree ⟨.ringToLeaf, ring, id.index⟩
  | leaf {id cluster : NodeId} {leaf : Node} (found : tree.nodes.find? id = some leaf)
      (level : leaf.kind = .leaf) (bound : leaf.configured = true)
      (under : leaf.parent = some cluster) : HasLink tree ⟨.leafToCluster, id.index, cluster.index⟩
  | cluster {id root : NodeId} {cluster : Node} (found : tree.nodes.find? id = some cluster)
      (level : cluster.kind = .cluster) (bound : cluster.configured = true)
      (under : cluster.parent = some root) : HasLink tree ⟨.clusterToRoot, id.index, root.index⟩

variable {tree : Tree} {link : Link}

/-- What an owner of an entry is linked to is a link. -/
theorem WellFormed.hasLink_of_owns (sound : tree.WellFormed) {id above : NodeId} {sla : Sla}
    {rings : List Nat} {table : LinkTable} {index : Nat} (owns : tree.Owns id sla rings)
    (belongs : Belongs id rings table index) (under : sla.parent = some above) :
    tree.HasLink ⟨table, index, (target id above table).index⟩ := by
  rcases owns with ⟨node, found, bound, carried, known⟩
  have level := (sound.placed id node found).2
  have parent_eq := (sound.carries_of_sla found carried).parent_eq.symm.trans under
  cases table with
  | ringToLeaf =>
      rcases belongs with ⟨leaf, mem⟩
      rw [leaf, Option.some.injEq] at level
      rw [sound.ringsOf_leaf found level.symm carried] at known
      exact .ring found level.symm bound carried known mem
  | leafToCluster =>
      rcases belongs with ⟨leaf, rfl⟩
      rw [leaf, Option.some.injEq] at level
      exact .leaf found level.symm bound parent_eq
  | clusterToRoot =>
      rcases belongs with ⟨cluster, rfl⟩
      rw [cluster, Option.some.injEq] at level
      exact .cluster found level.symm bound parent_eq

/-- Every link is in the entry of an owner, and goes where the owner is linked to. -/
theorem WellFormed.exists_owner (sound : tree.WellFormed) (has : tree.HasLink link) :
    ∃ id sla rings, tree.Owns id sla rings ∧ Belongs id rings link.table link.index ∧
      ∀ above, sla.parent = some above → (target id above link.table).index = link.parent := by
  cases has with
  | ring found level bound carried known mem =>
      rw [← sound.ringsOf_leaf found level carried] at known
      have placed := (sound.placed _ _ found).2
      rw [level] at placed
      exact ⟨_, _, _, ⟨_, found, bound, carried, known⟩, ⟨placed, mem⟩, fun _ _ => rfl⟩
  | leaf found level bound under | cluster found level bound under =>
      rcases sound.exists_owns found bound with ⟨sla, rings, -, parent_eq, owns⟩
      have placed := (sound.placed _ _ found).2
      rw [level] at placed
      refine ⟨_, sla, rings, owns, ⟨placed, rfl⟩, ?_⟩
      intro above named
      rw [parent_eq, under, Option.some.injEq] at named
      rw [← named]
      rfl

/-- The ring table is the only one with links beyond the registers that are read. -/
theorem WellFormed.table_of_unread (sound : tree.WellFormed) (has : tree.HasLink link)
    (beyond : link.table.length ≤ link.index) :
    link.table = .ringToLeaf ∧ link.index < tree.config.totalVfs * tree.config.banksPerVf := by
  cases has with
  | ring found level bound carried known mem =>
      exact ⟨rfl, DeviceConfig.ring_lt_banks sound.config_valid known mem⟩
  | leaf found level bound under | cluster found level bound under =>
      have inside := sound.index_lt_capacity found
      rw [level] at inside
      exact absurd inside (Nat.not_lt.2 beyond)

end Tree

/-! ## What is listed -/

namespace Link

variable {table : LinkTable} {index parent : Nat} {value : LinkTable → Nat → UInt32} {link : Link}

theorem ofRegister?_unlinked : ofRegister? table index unlinked = none := if_pos rfl

theorem ofRegister?_linked (small : parent < 256) :
    ofRegister? table index (linked parent) = some ⟨table, index, parent⟩ := by
  have parent_eq : LinkTable.parentOf (linked parent) = parent := by
    rw [LinkTable.parentOf, LinkTable.toNat_linked small]
    omega
  rw [ofRegister?, if_neg (LinkTable.linked_ne_unlinked small), parent_eq]

theorem mem_registers : (table, index) ∈ registers ↔ index < table.length := by
  cases table <;> simp [registers, LinkTable.all]

/-- The links that registers with some values hold, in the order of the registers. -/
def held (value : LinkTable → Nat → UInt32) : List Link :=
  registers.filterMap fun entry => ofRegister? entry.1 entry.2 (value entry.1 entry.2)

theorem mem_held : link ∈ held value ↔ link.index < link.table.length ∧
    ofRegister? link.table link.index (value link.table link.index) = some link := by
  simp only [held, List.mem_filterMap, Prod.exists]
  constructor
  · rintro ⟨table, index, mem, holds⟩
    have place : link.table = table ∧ link.index = index := by
      simp only [ofRegister?, Option.ite_none_left_eq_some, Option.some.injEq] at holds
      rw [← holds.2]
      exact ⟨rfl, rfl⟩
    rcases place with ⟨rfl, rfl⟩
    exact ⟨mem_registers.1 mem, holds⟩
  · rintro ⟨inside, holds⟩
    exact ⟨link.table, link.index, mem_registers.2 inside, holds⟩

/-- Each register holds one link at most. -/
theorem ordered_held : ((held value).map fun link => (link.table, link.index)).Sublist registers := by
  have place : (fun entry : LinkTable × Nat => (ofRegister? entry.1 entry.2 (value entry.1 entry.2)).map
      fun link => (link.table, link.index)) =
      Option.guard fun entry => value entry.1 entry.2 ≠ unlinked := by
    funext entry
    by_cases nowhere : value entry.1 entry.2 = unlinked <;> simp [ofRegister?, Option.guard, nowhere]
  rw [held, List.map_filterMap, place, List.filterMap_eq_filter]
  exact List.filter_sublist

/-- Registers that are left alone by reading them are read one after the other. -/
theorem read_of_still {σ : Type} [RegisterAccess σ] {state : σ} {entries : List (LinkTable × Nat)}
    (still : ∀ entry ∈ entries, readRegister (entry.1.offset entry.2) state =
      (.ok (value entry.1 entry.2), state)) :
    read entries state =
      (entries.filterMap fun entry => ofRegister? entry.1 entry.2 (value entry.1 entry.2), none) := by
  induction entries with
  | nil => rfl
  | cons entry rest ih =>
      rcases List.forall_mem_cons.1 still with ⟨first, others⟩
      rw [read, first]
      simp only [ih others, List.filterMap_cons]
      cases ofRegister? entry.1 entry.2 (value entry.1 entry.2) <;> rfl

theorem length_le_extent (table : LinkTable) : table.length ≤ table.extent := by
  cases table <;> decide

end Link

namespace Mirrors

variable {δ : Type} [DeviceView δ] {tree : Tree} {device : δ} {link : Link}

/-- Where the tables mirror a tree, their registers hold its links. -/
theorem holds_iff (mirrors : Mirrors tree device) (sound : tree.WellFormed)
    (inside : link.index < link.table.extent) :
    Link.ofRegister? link.table link.index (linkEntry device link.table link.index) = some link ↔
      tree.HasLink link := by
  constructor
  · intro holds
    by_cases owned : ∃ id sla rings, tree.Owns id sla rings ∧ Belongs id rings link.table link.index
    · rcases owned with ⟨id, sla, rings, owns, belongs⟩
      rcases mirrors.held id sla rings owns _ _ belongs with ⟨above, under, entry⟩
      rw [entry, Link.ofRegister?_linked (NodeId.index_lt _), Option.some.injEq] at holds
      rw [← holds]
      exact sound.hasLink_of_owns owns belongs under
    · have nowhere := mirrors.free _ _ inside fun id sla rings owns belongs =>
        owned ⟨id, sla, rings, owns, belongs⟩
      rw [nowhere, Link.ofRegister?_unlinked] at holds
      contradiction
  · intro has
    rcases sound.exists_owner has with ⟨id, sla, rings, owns, belongs, parent_eq⟩
    rcases mirrors.held id sla rings owns _ _ belongs with ⟨above, under, entry⟩
    rw [entry, Link.ofRegister?_linked (NodeId.index_lt _), parent_eq above under]

theorem mem_held (mirrors : Mirrors tree device) (sound : tree.WellFormed) :
    link ∈ Link.held (linkEntry device) ↔ tree.HasLink link ∧ link.index < link.table.length := by
  rw [Link.mem_held, and_comm]
  refine and_congr_left fun inside => mirrors.holds_iff sound ?_
  exact Nat.lt_of_lt_of_le inside (Link.length_le_extent link.table)

end Mirrors

/-- Reading a link register of a bench gives its entry and leaves the bench alone. -/
theorem Bench.readRegister_offset (bench : Bench) {table : LinkTable} {index : Nat}
    (inside : index < table.extent) :
    readRegister (table.offset index) bench = (.ok (linkEntry bench table index), bench) := by
  have elsewhere := (offset_ne_mailbox inside).1
  simp only [readRegister]
  split
  · rw [if_neg elsewhere]
    rfl
  · rfl

namespace Limiter

/-- What a listing of links says of a tree. -/
structure LinksListed (tree : Tree) (links : List Link) : Prop where
  /-- The links are listed in the order of the registers, none of them twice. -/
  ordered : (links.map fun link => (link.table, link.index)).Sublist Link.registers
  /-- Those links of the tree are listed, and only those, whose registers are read. -/
  mem_iff : ∀ link, link ∈ links ↔ tree.HasLink link ∧ link.index < link.table.length
  /-- A link that is left out comes from a ring beyond the banks of a device. -/
  left_out : ∀ link, tree.HasLink link → link ∉ links →
    link.table = .ringToLeaf ∧ LinkTable.ringToLeaf.length ≤ link.index
  /-- Nothing is left out where the functions have no more banks than a device. -/
  complete : tree.config.totalVfs * tree.config.banksPerVf ≤ LinkTable.ringToLeaf.length →
    ∀ link, link ∈ links ↔ tree.HasLink link

theorem linksListed_held {δ : Type} [DeviceView δ] {tree : Tree} {device : δ}
    (mirrors : Mirrors tree device) (sound : tree.WellFormed) :
    LinksListed tree (Link.held (linkEntry device)) where
  ordered := Link.ordered_held
  mem_iff link := mirrors.mem_held sound
  left_out link has missing := by
    have beyond : link.table.length ≤ link.index := by
      apply Nat.le_of_not_lt
      intro inside
      exact missing ((mirrors.mem_held sound).2 ⟨has, inside⟩)
    have ring := (sound.table_of_unread has beyond).1
    rw [ring] at beyond
    exact ⟨ring, beyond⟩
  complete few link := by
    rw [mirrors.mem_held sound, and_iff_left_iff_imp]
    intro has
    apply Nat.lt_of_not_le
    intro beyond
    rcases sound.table_of_unread has beyond with ⟨ring, small⟩
    rw [ring] at beyond
    omega

/-- In every run on a bench whose link tables are clear at first, and whatever its firmware answers, the link
registers that are read list the links of the configured nodes, each with its parent and no other. -/
theorem links_listed_where_read {profile : Profile} {config : DeviceConfig} {limiter : Limiter Bench}
    (reached : Reachable profile config LinksClear LinksStay limiter) (still : intact limiter.device) :
    ∃ links, Link.read Link.registers limiter.device = (links, none) ∧
      LinksListed limiter.tree links := by
  refine ⟨_, Link.read_of_still ?_, linksListed_held (reached.mirrors still) reached.wellFormed⟩
  rintro ⟨table, index⟩ mem
  have inside := Link.mem_registers.1 mem
  exact limiter.device.readRegister_offset (Nat.lt_of_lt_of_le inside (Link.length_le_extent table))

/-- In a run on a bench, the ring of the first leaf is listed with the leaf. -/
theorem links_listed_where_read_on_bench :
    ∃ limiter : Limiter Bench, ∃ links,
      Reachable Profile.gen4 smallConfig LinksClear LinksStay limiter ∧ intact limiter.device ∧
      Link.read Link.registers limiter.device = (links, none) ∧ LinksListed limiter.tree links ∧
      ⟨.ringToLeaf, 1, 0⟩ ∈ links := by
  have passed : comesUp (fun limiter =>
      let after := withFirstLeaf limiter
      decide (after.device.pool.nextAddress < 2 ^ 64 ∧
        ⟨.ringToLeaf, 1, 0⟩ ∈ (Link.read Link.registers after.device).1)) = true := by
    decide +kernel
  rcases exists_start passed with ⟨tree, bench, up, result⟩
  rcases of_decide_eq_true result with ⟨room, listed⟩
  have clean : LinksClear Bench.fresh := fun _ _ _ => rfl
  have reached : Reachable Profile.gen4 smallConfig LinksClear LinksStay
      (withFirstLeaf ⟨tree, bench⟩) := .performed (.createSla firstLeaf) (.started clean up)
  rcases links_listed_where_read reached room with ⟨links, read, shown⟩
  rw [read] at listed
  exact ⟨_, links, reached, room, read, shown, listed⟩

/-- Seventeen functions of four banks each, which is more than a device has. -/
def seventeenFunctions : DeviceConfig :=
  { DeviceConfig.gen4 with services := [.sym], totalVfs := 17, enabledVfs := 17 }

/-- A request for the leaf of the last of seventeen functions. -/
def lastLeaf : Sla := .leaf (.ofSlot .leaf 16) (.ofSlot .cluster 0) .sym ⟨2, 1⟩ 1000 2000

/-- The ring of the last of seventeen functions is linked to its leaf, and that is not listed. -/
theorem links_not_always_listed :
    ∃ limiter : Limiter Bench,
      Reachable Profile.gen4 seventeenFunctions LinksClear LinksStay limiter ∧
      intact limiter.device ∧ limiter.tree.HasLink ⟨.ringToLeaf, 65, 16⟩ ∧
      linkEntry limiter.device .ringToLeaf 65 = linked 16 ∧
      ⟨.ringToLeaf, 65, 16⟩ ∉ (Link.read Link.registers limiter.device).1 := by
  have passed : comesUpWith Profile.gen4 seventeenFunctions (fun limiter =>
      let after := ((Operation.createSla lastLeaf).run limiter).2
      decide (after.device.pool.nextAddress < 2 ^ 64 ∧
        linkEntry after.device .ringToLeaf 65 = linked 16 ∧
        ⟨.ringToLeaf, 65, 16⟩ ∉ (Link.read Link.registers after.device).1)) = true := by
    decide +kernel
  rcases exists_start_with passed with ⟨tree, bench, up, result⟩
  rcases of_decide_eq_true result with ⟨room, entry, unlisted⟩
  have clean : LinksClear Bench.fresh := fun _ _ _ => rfl
  have reached : Reachable Profile.gen4 seventeenFunctions LinksClear LinksStay
      ((Operation.createSla lastLeaf).run ⟨tree, bench⟩).2 :=
    .performed (.createSla lastLeaf) (.started clean up)
  refine ⟨_, reached, room, ?_, entry, unlisted⟩
  apply ((reached.mirrors room).holds_iff reached.wellFormed (by decide)).1
  rw [entry]
  exact Link.ofRegister?_linked (by decide)

end Limiter

end RateTree
