import RateTree.Proofs.DirectBench
import RateTree.Proofs.Mirror

/-!
# Firmware and tree agree

On a bench whose firmware is within direct reach, the firmware keeps one entry for each configured
node, with the tokens and the rings of the node's agreement, and no other entry, at all times of every
run. Requests that are lost or refused between the operations make no difference, since a command that
is not carried out is not committed to the tree either.
-/

namespace RateTree

open Firmware (Reprogrammed)

namespace NodeId

/-- Nodes have keys of their own. -/
theorem entryKey_inj {id other : NodeId} {kind level : NodeKind} (known : id.kind? = some kind)
    (other_known : other.kind? = some level) (same : id.entryKey = other.entryKey) : id = other := by
  have tag_eq := tag_eq_of_kind? known
  have other_tag_eq := tag_eq_of_kind? other_known
  simp only [entryKey, Prod.mk.injEq, tag_eq, other_tag_eq] at same
  rcases same with ⟨same_tag, same_index⟩
  have levels : kind = level := by
    cases kind <;> cases level <;> first | rfl | exact absurd same_tag (by decide)
  subst levels
  refine eq_of_kind?_of_index known other_known ?_
  have values := congrArg UInt32.toNat same_index
  have below := id.index_lt
  have other_below := other.index_lt
  simp only [Nat.toUInt32, UInt32.toNat_ofNat'] at values
  omega

end NodeId

namespace Tree

/-- Whether entries of the firmware describe the configured nodes of a tree, and nothing else. -/
structure DescribedBy (tree : Tree) (entries : List ((UInt8 × UInt32) × SlaParameters)) : Prop
    where
  distinct : (entries.map Prod.fst).Nodup
  held : ∀ id sla rings, tree.Owns id sla rings → ∃ tokens,
    Tokens.ofRates tree.profile sla.service sla.cir sla.pir = .ok tokens ∧
      entries.lookup id.entryKey = some ⟨tokens, rings.map Nat.toUInt16⟩
  free : ∀ key parameters, entries.lookup key = some parameters →
    ∃ id sla rings, tree.Owns id sla rings ∧ key = id.entryKey

variable {tree next : Tree} {id : NodeId} {kind : NodeKind} {command : AdminCommand}
  {entries updated : List ((UInt8 × UInt32) × SlaParameters)}

namespace DescribedBy

theorem of_sameOwners (described : tree.DescribedBy entries) (profile_eq : next.profile = tree.profile)
    (same : ∀ id sla rings, next.Owns id sla rings ↔ tree.Owns id sla rings) :
    next.DescribedBy entries where
  distinct := described.distinct
  held id sla rings owns := by
    rw [profile_eq]
    exact described.held id sla rings ((same id sla rings).1 owns)
  free key parameters found := by
    rcases described.free key parameters found with ⟨id, sla, rings, owns, key_eq⟩
    exact ⟨id, sla, rings, (same id sla rings).2 owns, key_eq⟩

/-- An entry that was written describes what its node owns now. -/
theorem written (described : tree.DescribedBy entries) (sound : tree.WellFormed)
    (known : id.kind? = some kind) {sla : Sla} {rings : List Nat} {tokens : Tokens}
    (profile_eq : next.profile = tree.profile)
    (owners : ∀ other agreement owned, next.Owns other agreement owned ↔
      if other = id then agreement = sla ∧ owned = rings else tree.Owns other agreement owned)
    (worth : Tokens.ofRates tree.profile sla.service sla.cir sla.pir = .ok tokens)
    (writes : command = .add ∨ command = .update)
    (done : Reprogrammed id.entryKey ⟨tokens, rings.map Nat.toUInt16⟩ entries command updated) :
    next.DescribedBy updated := by
  have no_reset : command ≠ .init := by rcases writes with rfl | rfl <;> decide
  have no_delete : command ≠ .delete := by rcases writes with rfl | rfl <;> decide
  have lookup := done.lookup no_reset
  simp only [if_neg no_delete] at lookup
  refine ⟨done.distinct described.distinct, ?_, ?_⟩
  · intro other agreement owned owns
    rw [owners] at owns
    rw [profile_eq, lookup]
    split at owns
    · next same =>
      rcases owns with ⟨rfl, rfl⟩
      exact ⟨tokens, worth, by rw [if_pos (by rw [same])]⟩
    · next different =>
      rcases sound.kind?_of_owns owns with ⟨level, other_known⟩
      rcases described.held other agreement owned owns with ⟨counts, other_worth, found⟩
      refine ⟨counts, other_worth, ?_⟩
      rw [if_neg fun same => different (NodeId.entryKey_inj other_known known same)]
      exact found
  · intro key parameters found
    rw [lookup] at found
    split at found
    · next own => exact ⟨id, sla, rings, (owners _ _ _).2 (by rw [if_pos rfl]; simp), own⟩
    · next apart =>
      rcases described.free key parameters found with ⟨other, agreement, owned, owns, key_eq⟩
      refine ⟨other, agreement, owned, (owners _ _ _).2 ?_, key_eq⟩
      rw [if_neg]
      · exact owns
      · rintro rfl
        exact apart key_eq

/-- An entry that was deleted describes nothing any more. -/
theorem erased (described : tree.DescribedBy entries) (sound : tree.WellFormed)
    (known : id.kind? = some kind) {parameters : SlaParameters}
    (profile_eq : next.profile = tree.profile)
    (owners : ∀ other agreement owned, next.Owns other agreement owned ↔
      other ≠ id ∧ tree.Owns other agreement owned)
    (done : Reprogrammed id.entryKey parameters entries .delete updated) :
    next.DescribedBy updated := by
  have lookup := done.lookup (by decide)
  simp only [if_true] at lookup
  refine ⟨done.distinct described.distinct, ?_, ?_⟩
  · intro other agreement owned owns
    rcases (owners _ _ _).1 owns with ⟨different, owns⟩
    rcases sound.kind?_of_owns owns with ⟨level, other_known⟩
    rw [profile_eq, lookup,
      if_neg fun same => different (NodeId.entryKey_inj other_known known same)]
    exact described.held other agreement owned owns
  · intro key parameters found
    rw [lookup] at found
    split at found
    · contradiction
    · next apart =>
      rcases described.free key parameters found with ⟨other, agreement, owned, owns, key_eq⟩
      refine ⟨other, agreement, owned, (owners _ _ _).2 ⟨?_, owns⟩, key_eq⟩
      rintro rfl
      exact apart key_eq

/-- There is no entry for a vacant node. -/
theorem lookup_of_vacant (described : tree.DescribedBy entries) (sound : tree.WellFormed)
    {node : Node} (found : tree.nodes.find? id = some node) (vacant : node.configured = false) :
    entries.lookup id.entryKey = none := by
  cases entry : entries.lookup id.entryKey with
  | none => rfl
  | some parameters =>
      rcases described.free _ _ entry with ⟨owner, sla, rings, owns, key_eq⟩
      rcases sound.carries_of_owns owns with ⟨held, located, bound, known, -⟩
      have same := NodeId.entryKey_inj (sound.placed id node found).2 known key_eq
      subst same
      rw [found, Option.some.injEq] at located
      subst located
      rw [vacant] at bound
      contradiction

/-- Where an agreement is owned in two trees of one device, their descriptions have the same entry. -/
theorem lookup_of_owns (described : tree.DescribedBy entries) (also : next.DescribedBy updated)
    (profile_eq : next.profile = tree.profile) {sla : Sla} {rings : List Nat}
    (owns : tree.Owns id sla rings) (still : next.Owns id sla rings) :
    updated.lookup id.entryKey = entries.lookup id.entryKey := by
  rcases described.held id sla rings owns with ⟨tokens, worth, entry⟩
  rcases also.held id sla rings still with ⟨counts, worth_again, entry_again⟩
  rw [profile_eq, worth, Except.ok.injEq] at worth_again
  rw [entry, entry_again, worth_again]

/-- There is an entry for every configured node. -/
theorem lookup_of_configured (described : tree.DescribedBy entries) (sound : tree.WellFormed)
    {node : Node} (found : tree.nodes.find? id = some node) (bound : node.configured = true) :
    (entries.lookup id.entryKey).isSome = true := by
  rcases sound.exists_owns found bound with ⟨sla, rings, -, -, owns⟩
  rcases described.held id sla rings owns with ⟨tokens, -, entry⟩
  simp [entry]

end DescribedBy

end Tree

/-- What the firmware keeps for the tree of a device. -/
structure FirmwareShows (profile : Profile) (config : DeviceConfig) (tree : Tree)
    (firmware : Firmware) : Prop where
  /-- No key has two entries. -/
  distinct : (firmware.configured.map Prod.fst).Nodup
  /-- A configured node has an entry with the tokens and, for a leaf, the rings of its agreement. -/
  held : ∀ id node, tree.nodes.find? id = some node → node.configured = true →
    ∃ sla parameters, node.sla = some sla ∧
      firmware.parametersOf? node.kind.tag.toUInt8 id.index.toUInt32 = some parameters ∧
      Tokens.ofRates profile sla.service sla.cir sla.pir = .ok parameters.tokens ∧
      (node.kind = .leaf →
        config.ringsFor sla.owner sla.service = .ok (parameters.rings.map UInt16.toNat)) ∧
      (node.kind ≠ .leaf → parameters.rings = [])
  /-- Every entry belongs to one configured node. -/
  owned : ∀ entry ∈ firmware.configured, ∃! id, ∃ node, tree.nodes.find? id = some node ∧
    node.configured = true ∧ entry.1 = (node.kind.tag.toUInt8, id.index.toUInt32)

namespace Limiter

open Bench (Direct Faithful Programmed)

/-- Whether the firmware of a bench within direct reach describes a tree. -/
def Agrees (tree : Tree) (bench : Bench) : Prop :=
  ∃ entries, Programmed bench entries ∧ tree.DescribedBy entries

variable {tree committed : Tree} {bench : Bench}

/-- Applying a plan keeps tree and firmware in agreement if the entry it writes or deletes does. -/
theorem applies_of_programs {apply : Action Bench Unit} {command : AdminCommand} {id : NodeId}
    {tokens : Tokens} {rings : List Nat} (relinks : Relinks tree committed apply bench)
    (programs : ∀ entries, Programmed bench entries →
      Programs apply command id tokens rings bench entries)
    (described : ∀ entries updated, tree.DescribedBy entries →
      Reprogrammed id.entryKey ⟨tokens, rings.map Nat.toUInt16⟩ entries command updated →
      committed.DescribedBy updated) : Applies Agrees tree committed apply bench := by
  have always := Action.Ensures.weaken relinks (fun _ _ _ => trivial) fun _ _ => trivial
  apply always.given
  rintro ⟨entries, programmed, before⟩
  refine (programs entries programmed).weaken ?_ ?_
  · rintro _ after ⟨updated, done, reached⟩
    exact ⟨updated, reached, described entries updated before done⟩
  · intro after still
    exact ⟨entries, still, before⟩

theorem lasting_agrees : Lasting Agrees where
  same_owners tree next bench profile_eq same := by
    rintro ⟨entries, programmed, described⟩
    exact ⟨entries, programmed, described.of_sameOwners profile_eq same⟩
  create tree request plan bench sound planned := by
    rcases Tree.planCreate_accepted planned with ⟨node, accepted⟩
    have known : plan.sla.node.kind? = some node.kind := by
      rw [accepted.sla_node, accepted.known sound]
    refine applies_of_programs (applyCreate_relinks sound planned)
      (fun entries programmed => applyCreate_programs programmed known) ?_
    intro entries updated described done
    exact described.written sound known rfl (fun _ _ _ => accepted.owns_iff sound) accepted.tokens
      (Or.inl rfl) done
  update tree request plan bench sound planned := by
    rcases Tree.planUpdate_accepted planned with ⟨node, accepted⟩
    have known := accepted.known sound
    have worth : Tokens.ofRates tree.profile plan.sla.service plan.sla.cir plan.sla.pir =
        .ok plan.tokens := by
      rw [accepted.sla_service, (accepted.carried sound).service_eq]
      exact accepted.tokens
    refine applies_of_programs (applyUpdate_relinks sound planned)
      (fun entries programmed => applyUpdate_programs programmed known) ?_
    intro entries updated described done
    exact described.written sound known rfl (fun _ _ _ => accepted.owns_iff sound) worth
      (Or.inr rfl) done
  delete tree id plan bench sound planned := by
    rcases Tree.planDelete_accepted planned with ⟨node, accepted⟩
    have known : plan.id.kind? = some node.kind := by
      rw [accepted.id_eq, accepted.known sound]
    refine applies_of_programs (applyDelete_relinks sound planned)
      (fun entries programmed => applyDelete_programs programmed known) ?_
    intro entries updated described done
    exact described.erased sound known rfl (fun _ _ _ => accepted.owns_iff sound) done

theorem unbroken_agrees : Unbroken Agrees where
  toLasting := lasting_agrees
  create_fault tree request plan bench cause after sound planned := by
    rintro ⟨entries, programmed, described⟩ run
    rcases Tree.planCreate_accepted planned with ⟨node, accepted⟩
    have known : plan.sla.node.kind? = some node.kind := by
      rw [accepted.sla_node, accepted.known sound]
    exact ⟨entries, applyCreate_fault programmed known run, described⟩
  update_fault tree request plan bench cause after sound planned := by
    rintro ⟨entries, programmed, described⟩ run
    rcases Tree.planUpdate_accepted planned with ⟨node, accepted⟩
    exact ⟨entries, applyUpdate_fault programmed (accepted.known sound) run, described⟩
  delete_fault tree id plan bench cause after sound planned := by
    rintro ⟨entries, programmed, described⟩ run
    rcases Tree.planDelete_accepted planned with ⟨node, accepted⟩
    have known : plan.id.kind? = some node.kind := by
      rw [accepted.id_eq, accepted.known sound]
    exact ⟨entries, applyDelete_fault programmed known run, described⟩

/-- A limiter is prepared with no entries in the firmware. -/
theorem agrees_of_prepare {profile : Profile} {config : DeviceConfig} {ready : Bench}
    (faithful : Faithful bench) (prepared : prepare profile config bench = (.ok tree, ready)) :
    Agrees tree ready := by
  rcases prepare_eq_ok.1 prepared with ⟨-, -, made, reset, cleared, sent, first, second⟩
  rcases ((Bench.roundTrip_programs faithful.programmed _).of_ok sent).2 with
    ⟨given, updated, -, done, programmed⟩
  have no_bell : (0 : UInt32) ≠ 1 := by decide
  have first_only := ((Bench.write_total _ no_bell).of_ok first).2
  have second_only := ((Bench.write_total _ no_bell).of_ok second).2
  have cleared := second_only.programmed (first_only.programmed programmed)
  cases done with
  | init =>
      refine ⟨[], cleared, .nil, ?_, ?_⟩
      · rintro id sla rings ⟨node, found, bound, -⟩
        rw [vacant_rootsOnly made found] at bound
        contradiction
      · intro key parameters found
        simp at found

/-- A move of a bench that makes some of the next requests fail. -/
def Injects (before after : Bench) : Prop :=
  ∃ failNext rejectNext,
    after = { before with firmware := { before.firmware with failNext, rejectNext } }

theorem Agrees.of_injects {after : Bench} (agrees : Agrees tree bench)
    (injected : Injects bench after) : Agrees tree after := by
  rcases agrees with ⟨entries, programmed, described⟩
  rcases injected with ⟨failNext, rejectNext, rfl⟩
  exact ⟨entries, ⟨programmed.toFaithful.with_state _ _ _ _, programmed.configured_eq⟩, described⟩

theorem Reachable.agrees {profile : Profile} {config : DeviceConfig} {limiter : Limiter Bench}
    (reached : Reachable profile config Direct Injects limiter)
    (still : intact limiter.device) : Agrees limiter.tree limiter.device := by
  refine lasting_agrees.underway ?_ ?_ reached.underway still
  · intro bench bare ready direct prepared
    exact agrees_of_prepare direct.faithful prepared
  · rintro tree bench _ sound ⟨failNext, rejectNext, rfl⟩ still
    exact ⟨still, fun agrees => agrees.of_injects ⟨failNext, rejectNext, rfl⟩⟩

/-- The firmware describes the tree also once the addresses of the bench have run out. -/
theorem Reachable.agrees_always {profile : Profile} {config : DeviceConfig}
    {limiter : Limiter Bench} (reached : Reachable profile config Direct Injects limiter) :
    Agrees limiter.tree limiter.device := by
  apply unbroken_agrees.underway _ _ reached.underway
  · intro bench bare ready direct prepared
    exact agrees_of_prepare direct.faithful prepared
  · intro tree bench after injected agrees
    exact agrees.of_injects injected

theorem Agrees.described (agrees : Agrees tree bench) : tree.DescribedBy bench.firmware.configured := by
  rcases agrees with ⟨entries, programmed, described⟩
  rwa [programmed.configured_eq]

theorem Agrees.firmwareShows (agrees : Agrees tree bench) (sound : tree.WellFormed) :
    FirmwareShows tree.profile tree.config tree bench.firmware := by
  rcases agrees with ⟨entries, programmed, described⟩
  rw [← programmed.configured_eq] at described
  refine ⟨described.distinct, ?_, ?_⟩
  · intro id node found bound
    rcases sound.exists_owns found bound with ⟨sla, rings, carried, -, owns⟩
    rcases described.held id sla rings owns with ⟨tokens, worth, entry⟩
    have known := (sound.placed id node found).2
    have rings_eq : tree.ringsOf sla = .ok rings := by
      rcases owns with ⟨_, _, _, _, rings_eq⟩
      exact rings_eq
    refine ⟨sla, ⟨tokens, rings.map Nat.toUInt16⟩, carried, ?_, worth, ?_, ?_⟩
    · rw [Firmware.parametersOf?, ← NodeId.tag_eq_of_kind? known]
      exact entry
    · intro level
      rw [level] at known
      have small : ∀ ring ∈ rings, ring < 2 ^ 16 := by
        intro ring mem
        exact Nat.lt_trans (sound.fits owns .ringToLeaf ring ⟨known, mem⟩) (by decide)
      rw [AdminChannel.map_toNat_toUInt16 small, ← sound.ringsOf_leaf found level carried]
      exact rings_eq
    · intro inner
      rw [← (sound.carries_of_sla found carried).kind_eq] at inner
      rw [Tree.ringsOf_inner inner, Except.ok.injEq] at rings_eq
      rw [← rings_eq]
      rfl
  · intro entry mem
    cases found : bench.firmware.configured.lookup entry.1 with
    | none =>
        have absent := List.lookup_eq_none_iff.1 found entry mem
        simp at absent
    | some parameters =>
        rcases described.free entry.1 parameters found with ⟨id, sla, rings, owns, key_eq⟩
        rcases sound.carries_of_owns owns with ⟨node, located, bound, known, -⟩
        refine ⟨id, ⟨node, located, bound, ?_⟩, ?_⟩
        · rw [key_eq, NodeId.entryKey, NodeId.tag_eq_of_kind? known]
        · rintro other ⟨otherNode, other_located, -, other_key_eq⟩
          have other_known := (sound.placed other otherNode other_located).2
          apply NodeId.entryKey_inj other_known known
          rw [← key_eq, other_key_eq, NodeId.entryKey, NodeId.tag_eq_of_kind? other_known]

/-- In every run on a bench within direct reach, the firmware shows the tree for as long as the
addresses of the bench have not run out, whatever requests are made to fail. -/
theorem firmware_shows_tree {profile : Profile} {config : DeviceConfig} {limiter : Limiter Bench}
    (reached : Reachable profile config Direct Injects limiter)
    (room : limiter.device.pool.nextAddress < 2 ^ 64) :
    FirmwareShows profile config limiter.tree limiter.device.firmware := by
  have shown := (reached.agrees room).firmwareShows reached.wellFormed
  rwa [reached.constants.1, reached.constants.2] at shown

/-- In a run on a bench, the firmware has the entry of the first leaf. -/
theorem firmware_shows_tree_on_bench :
    ∃ limiter, Reachable Profile.gen4 smallConfig Direct Injects limiter ∧
      FirmwareShows Profile.gen4 smallConfig limiter.tree limiter.device.firmware ∧
      (limiter.device.firmware.parametersOf? 2 0).isSome = true := by
  have direct : Direct Bench.fresh := ⟨rfl, rfl, rfl⟩
  rcases exists_reachable direct with ⟨limiter, reached, room, leaf, found, bound⟩
  have shown := firmware_shows_tree reached room
  rcases shown.held _ leaf found bound with ⟨sla, parameters, -, entry, -⟩
  have level := (reached.wellFormed.placed _ leaf found).2
  have kind_eq : leaf.kind = .leaf := Option.some.inj (level.symm.trans rfl)
  rw [kind_eq] at entry
  exact ⟨limiter, reached, shown, Option.isSome_iff_exists.2 ⟨parameters, entry⟩⟩

end Limiter

end RateTree
