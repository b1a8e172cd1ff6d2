import RateTree.Proofs.LinkTables
import RateTree.RateQuery

/-!
# Rate queries and the link tables

A rate query finds the leaf of a ring in the tree, by the function and the service of the agreements;
the hardware finds it in the table that points each ring to its leaf. Both find the same leaf, since a
configured leaf owns exactly the rings by which a query can find it, no ring has two owners, and the
table points every ring to its owner.
-/

namespace RateTree

open LinkTable (linked unlinked)

variable {δ : Type}

/-- The rate of an agreement that a query asks for. -/
def Sla.rate (sla : Sla) : RateKind → Nat
  | .cir => sla.cir
  | .pir => sla.pir

namespace LinkTable

theorem toNat_linked {parent : Nat} (small : parent < 256) :
    (linked parent).toNat = 0x80000000 + parent := by
  have fits : parent < 2 ^ 31 := Nat.lt_trans small (by decide)
  have joined : 2 ^ 31 * 1 + parent = 2 ^ 31 * 1 ||| parent := Nat.two_pow_add_eq_or_of_lt fits 1
  have value : parent.toUInt32.toNat = parent :=
    UInt32.toNat_ofNat_of_lt' (Nat.lt_trans small (by decide))
  rw [linked, UInt32.toNat_or, value]
  exact joined.symm

theorem linked_ne_unlinked {parent : Nat} (small : parent < 256) : linked parent ≠ unlinked := by
  intro same
  have value := toNat_linked small
  rw [same, unlinked, UInt32.toNat_zero] at value
  omega

theorem linked_inj {parent other : Nat} (small : parent < 256) (other_small : other < 256)
    (same : linked parent = linked other) : parent = other := by
  have value := toNat_linked small
  rw [same, toNat_linked other_small] at value
  omega

end LinkTable

namespace Tree

variable {tree : Tree} {vf bank : Nat}

theorem rateForRing_eq (tree : Tree) (ring : Nat) (kind : RateKind) :
    tree.rateForRing ring kind = ((tree.slaOfRing? ring).map (·.rate kind)).getD 0 := by
  cases found : tree.slaOfRing? ring <;> cases kind <;> simp [rateForRing, found, Sla.rate]

/-- The agreements of the configured leaves, by slot. -/
def leafSlas (tree : Tree) : List Sla :=
  (tree.nodes.nodes .leaf).filterMap fun node => if node.configured then node.sla else none

theorem slaOfRing?_eq (bank_lt : bank < tree.config.banksPerVf) :
    tree.slaOfRing? (vf * tree.config.banksPerVf + bank) = tree.leafSlas.find? fun sla =>
      sla.owner.vfNumber? == some vf && (tree.config.bankUse bank).carries sla.service := by
  have banks : 0 < tree.config.banksPerVf := Nat.zero_lt_of_lt bank_lt
  have function : (vf * tree.config.banksPerVf + bank) / tree.config.banksPerVf = vf := by
    rw [Nat.mul_comm, Nat.mul_add_div banks, Nat.div_eq_of_lt bank_lt, Nat.add_zero]
  simp only [slaOfRing?, leafSlas, function, Nat.mul_add_mod_of_lt bank_lt]

namespace WellFormed

/-- The agreements of the configured leaves are those of the leaves that own rings. -/
theorem mem_leafSlas (sound : tree.WellFormed) {sla : Sla} :
    sla ∈ tree.leafSlas ↔ ∃ id rings, tree.Owns id sla rings ∧ id.kind? = some .leaf := by
  simp only [leafSlas, List.mem_filterMap, Option.ite_none_right_eq_some]
  constructor
  · rintro ⟨leaf, mem, bound, carried⟩
    rcases sound.find?_of_mem_nodes mem with ⟨found, level⟩
    have known := (sound.placed leaf.id leaf found).2
    rw [level] at known
    rcases (sound.carries_of_sla found carried).rings with ⟨rings, rings_eq⟩
    exact ⟨leaf.id, rings, ⟨leaf, found, bound, carried, rings_eq⟩, known⟩
  · rintro ⟨id, rings, ⟨leaf, found, bound, carried, -⟩, level⟩
    have known := (sound.placed id leaf found).2
    rw [level, Option.some.injEq] at known
    have mem := sound.mem_nodes_of_find? found
    rw [← known] at mem
    exact ⟨leaf, mem, bound, carried⟩

/-- A query picks an agreement by the condition under which the ring is one of the leaf's. -/
theorem mem_rings_iff (sound : tree.WellFormed) {id : NodeId} {sla : Sla} {rings : List Nat}
    (owns : tree.Owns id sla rings) (level : id.kind? = some .leaf)
    (bank_lt : bank < tree.config.banksPerVf)
    (small : vf * tree.config.banksPerVf + bank < 2 ^ 32) :
    vf * tree.config.banksPerVf + bank ∈ rings ↔
      (sla.owner.vfNumber? == some vf && (tree.config.bankUse bank).carries sla.service) = true := by
  rcases owns with ⟨leaf, found, -, carried, known⟩
  have placed := (sound.placed id leaf found).2
  rw [level, Option.some.injEq] at placed
  rw [sound.ringsOf_leaf found placed.symm carried] at known
  rw [DeviceConfig.mem_ringsFor sound.config_valid known bank_lt small]
  simp only [Bool.and_eq_true, beq_iff_eq]

variable (sound : tree.WellFormed) (bank_lt : bank < tree.config.banksPerVf)
  (small : vf * tree.config.banksPerVf + bank < 2 ^ 32)

include sound bank_lt small

/-- A ring for which an agreement is found belongs to the leaf of that agreement. -/
theorem owner_of_slaOfRing? {sla : Sla}
    (picked : tree.slaOfRing? (vf * tree.config.banksPerVf + bank) = some sla) :
    ∃ id rings, tree.Owns id sla rings ∧ id.kind? = some .leaf ∧
      vf * tree.config.banksPerVf + bank ∈ rings := by
  rw [slaOfRing?_eq bank_lt] at picked
  rcases sound.mem_leafSlas.1 (List.mem_of_find?_eq_some picked) with ⟨id, rings, owns, level⟩
  have fits := List.find?_some picked
  exact ⟨id, rings, owns, level, (sound.mem_rings_iff owns level bank_lt small).2 fits⟩

/-- A ring for which no agreement is found belongs to no leaf. -/
theorem not_mem_of_slaOfRing? (missed : tree.slaOfRing? (vf * tree.config.banksPerVf + bank) = none)
    {id : NodeId} {sla : Sla} {rings : List Nat} (owns : tree.Owns id sla rings)
    (level : id.kind? = some .leaf) : vf * tree.config.banksPerVf + bank ∉ rings := by
  rw [slaOfRing?_eq bank_lt] at missed
  rw [sound.mem_rings_iff owns level bank_lt small]
  exact List.find?_eq_none.1 missed sla (sound.mem_leafSlas.2 ⟨id, rings, owns, level⟩)

end WellFormed

/-- The answer to a query for a bank of a function is the rate of the bank's ring, above the bank. -/
theorem reply_eq {kind : RateKind} (function : vf < tree.config.totalVfs)
    (bank_lt : bank < tree.config.banksPerVf)
    (small : vf * tree.config.banksPerVf + bank < 2 ^ 32) :
    tree.reply ⟨kind, vf, bank⟩ = .ok ⟨kind.replyType,
      tree.rateForRing (vf * tree.config.banksPerVf + bank) kind * 4 % 0x100000000 ||| bank⟩ := by
  rcases exists_ringNumber small with ⟨ring, numbered⟩
  have ring_eq := ringNumber_eq_ok numbered
  have inside : ¬(tree.config.totalVfs ≤ vf ∨ tree.config.banksPerVf ≤ bank) := by omega
  have encoded (rate : Nat) : RateReply.encode rate ring tree.config.banksPerVf =
      .ok (rate * 4 % 0x100000000 ||| bank) := by
    have banks : tree.config.banksPerVf ≠ 0 := Nat.ne_zero_of_lt bank_lt
    rw [RateReply.encode, Word.rem, if_neg banks, ring_eq, Nat.mul_add_mod_of_lt bank_lt]
    rfl
  simp only [reply, if_neg inside, Outcome.bind_eq_ok, Outcome.liftFault_eq_ok]
  refine ⟨ring, numbered, _, encoded _, ?_⟩
  rw [← ring_eq]
  rfl

end Tree

/-- The ring table points a ring to a configured leaf with an agreement. -/
structure FeedsLeaf [DeviceView δ] (tree : Tree) (device : δ) (ring index : Nat) (sla : Sla) : Prop
    where
  inside : index < NodeKind.leaf.capacity
  leaf : ∃ leaf, tree.nodes.find? (NodeId.ofSlot .leaf index) = some leaf ∧
    leaf.configured = true ∧ leaf.sla = some sla
  entry : linkEntry device .ringToLeaf ring = linked index

/-- What a query for the rate of a bank's ring says, and the ring table of the same ring. -/
structure RateShown [DeviceView δ] (tree : Tree) (device : δ) (ring : Nat) (kind : RateKind) : Prop
    where
  inside : ring < LinkTable.ringToLeaf.extent
  /-- The ring points to a configured leaf or nowhere. -/
  points : linkEntry device .ringToLeaf ring = unlinked ∨
    ∃ index sla, FeedsLeaf tree device ring index sla
  /-- The rate is that of the leaf that the ring points to. -/
  rate : ∀ index sla, FeedsLeaf tree device ring index sla →
    tree.rateForRing ring kind = sla.rate kind
  /-- A rate of zero is that of a ring that points nowhere or to a leaf with that rate. -/
  zero : tree.rateForRing ring kind = 0 ↔ linkEntry device .ringToLeaf ring = unlinked ∨
    ∃ index sla, FeedsLeaf tree device ring index sla ∧ sla.rate kind = 0

theorem FeedsLeaf.unique [DeviceView δ] {tree : Tree} {device : δ} {ring index other : Nat}
    {sla otherSla : Sla} (feeds : FeedsLeaf tree device ring index sla)
    (again : FeedsLeaf tree device ring other otherSla) : otherSla = sla := by
  have small : index < 256 := Nat.lt_trans feeds.inside (by decide)
  have other_small : other < 256 := Nat.lt_trans again.inside (by decide)
  have same : index = other :=
    LinkTable.linked_inj small other_small (feeds.entry.symm.trans again.entry)
  subst same
  rcases feeds.leaf with ⟨leaf, found, -, carried⟩
  rcases again.leaf with ⟨same, found_again, -, carried_again⟩
  rw [found, Option.some.injEq] at found_again
  subst found_again
  rw [carried, Option.some.injEq] at carried_again
  exact carried_again.symm

theorem FeedsLeaf.linked [DeviceView δ] {tree : Tree} {device : δ} {ring index : Nat} {sla : Sla}
    (feeds : FeedsLeaf tree device ring index sla) :
    linkEntry device .ringToLeaf ring ≠ unlinked := by
  rw [feeds.entry]
  exact LinkTable.linked_ne_unlinked (Nat.lt_trans feeds.inside (by decide))

namespace Mirrors

variable [DeviceView δ] {tree : Tree} {device : δ} {id : NodeId} {sla : Sla} {rings : List Nat}
  {ring : Nat}

theorem feedsLeaf (mirrors : Mirrors tree device) (sound : tree.WellFormed)
    (owns : tree.Owns id sla rings) (level : id.kind? = some .leaf) (mem : ring ∈ rings) :
    FeedsLeaf tree device ring id.index sla := by
  rcases mirrors.held id sla rings owns .ringToLeaf ring ⟨level, mem⟩ with ⟨_, -, entry⟩
  rcases owns with ⟨leaf, found, bound, carried, -⟩
  refine ⟨?_, ⟨leaf, ?_, bound, carried⟩, entry⟩
  · have known := (sound.placed id leaf found).2
    rw [level, Option.some.injEq] at known
    rw [known]
    exact sound.index_lt_capacity found
  · rwa [NodeId.ofSlot_index level]

/-- Where the tables mirror the tree, a query finds the leaf that the ring points to. -/
theorem rateShown (mirrors : Mirrors tree device) (sound : tree.WellFormed) {service : Service}
    (enabled : service ∈ tree.config.services) {vf bank : Nat}
    (function : vf < tree.config.totalVfs) (bank_lt : bank < tree.config.banksPerVf)
    (kind : RateKind) :
    RateShown tree device (vf * tree.config.banksPerVf + bank) kind := by
  have below := DeviceConfig.ring_lt sound.config_valid enabled function bank_lt
  have inside : vf * tree.config.banksPerVf + bank < LinkTable.ringToLeaf.extent :=
    Nat.lt_trans below (by decide)
  have small : vf * tree.config.banksPerVf + bank < 2 ^ 32 := Nat.lt_trans below (by decide)
  have answer := tree.rateForRing_eq (vf * tree.config.banksPerVf + bank) kind
  cases picked : tree.slaOfRing? (vf * tree.config.banksPerVf + bank) with
  | some sla =>
      rcases sound.owner_of_slaOfRing? bank_lt small picked with ⟨id, rings, owns, level, mem⟩
      have feeds := mirrors.feedsLeaf sound owns level mem
      have rate : tree.rateForRing (vf * tree.config.banksPerVf + bank) kind = sla.rate kind := by
        rw [answer, picked, Option.map_some, Option.getD_some]
      refine ⟨inside, .inr ⟨id.index, sla, feeds⟩, ?_, ?_⟩
      · intro index other again
        rw [rate, feeds.unique again]
      · rw [rate]
        constructor
        · exact fun none => .inr ⟨id.index, sla, feeds, none⟩
        · rintro (nowhere | ⟨index, other, again, none⟩)
          · exact absurd nowhere feeds.linked
          · rwa [feeds.unique again] at none
  | none =>
      have nowhere : linkEntry device .ringToLeaf (vf * tree.config.banksPerVf + bank) =
          unlinked := by
        apply mirrors.free _ _ inside
        rintro id sla rings owns ⟨level, mem⟩
        exact sound.not_mem_of_slaOfRing? bank_lt small picked owns level mem
      have rate : tree.rateForRing (vf * tree.config.banksPerVf + bank) kind = 0 := by
        rw [answer, picked, Option.map_none, Option.getD_none]
      refine ⟨inside, .inl nowhere, ?_, iff_of_true rate (.inl nowhere)⟩
      intro index sla feeds
      exact absurd nowhere feeds.linked

end Mirrors

namespace Limiter

/-- In every run on a device that starts with clear link tables, a function that asks for the rate of one
of its banks is told the rate of the leaf that the hardware feeds from the bank's ring, for as long as
the device is intact. -/
theorem rate_queries_agree_with_links [LinkedDevice δ] {profile : Profile} {config : DeviceConfig}
    {limiter : Limiter δ} (reached : Reachable profile config LinksClear LinksStay limiter)
    (still : intact limiter.device) {service : Service} (enabled : service ∈ config.services)
    {vf bank : Nat} (function : vf < config.totalVfs) (bank_lt : bank < config.banksPerVf)
    (kind : RateKind) :
    limiter.tree.reply ⟨kind, vf, bank⟩ = .ok ⟨kind.replyType,
        limiter.tree.rateForRing (vf * config.banksPerVf + bank) kind * 4 % 0x100000000 ||| bank⟩ ∧
      RateShown limiter.tree limiter.device (vf * config.banksPerVf + bank) kind := by
  have sound := reached.wellFormed
  have config_eq := reached.constants.2
  have small : vf * config.banksPerVf + bank < 2 ^ 32 := by
    have valid := sound.config_valid
    rw [config_eq] at valid
    exact Nat.lt_trans (DeviceConfig.ring_lt valid enabled function bank_lt) (by decide)
  rw [← config_eq] at enabled function bank_lt small ⊢
  exact ⟨Tree.reply_eq function bank_lt small,
    (reached.mirrors still).rateShown sound enabled function bank_lt kind⟩

/-- In a run on a bench, the function of the first leaf is told the leaf's committed rate. -/
theorem rate_queries_agree_with_links_on_bench :
    ∃ limiter : Limiter Bench, Reachable Profile.gen4 smallConfig LinksClear LinksStay limiter ∧
      intact limiter.device ∧
      limiter.tree.reply ⟨.cir, 0, 1⟩ = .ok ⟨RateKind.cir.replyType, 1000 * 4 ||| 1⟩ ∧
      RateShown limiter.tree limiter.device 1 .cir := by
  have passed : comesUp (fun limiter =>
      let after := withFirstLeaf limiter
      decide (after.device.pool.nextAddress < 2 ^ 64) &&
        decide (after.tree.rateForRing 1 .cir = 1000)) = true := by
    decide +kernel
  have clean : LinksClear Bench.fresh := fun _ _ _ => rfl
  rcases exists_start passed with ⟨tree, bench, up, result⟩
  simp only [Bool.and_eq_true, decide_eq_true_eq] at result
  rcases result with ⟨room, rate⟩
  have reached : Reachable Profile.gen4 smallConfig LinksClear LinksStay
      (withFirstLeaf ⟨tree, bench⟩) := .performed (.createSla firstLeaf) (.started clean up)
  have enabled : Service.sym ∈ smallConfig.services := by decide
  have function : 0 < smallConfig.totalVfs := by decide
  have bank_lt : 1 < smallConfig.banksPerVf := by decide
  rcases rate_queries_agree_with_links reached room enabled function bank_lt .cir with
    ⟨answer, shown⟩
  refine ⟨_, reached, room, ?_, shown⟩
  have ring_rate : (withFirstLeaf ⟨tree, bench⟩).tree.rateForRing
      (0 * smallConfig.banksPerVf + 1) .cir = 1000 := rate
  rw [answer, ring_rate]

end Limiter

end RateTree
