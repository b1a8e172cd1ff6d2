import RateTree.Proofs.RingRates

/-!
# What the replies to rate queries carry

A reply keeps its two lowest bits for a bank, so thirty bits are left for a rate. Rates are bounded by
what a service may ask for at most, and rings by what a tree has leaves for; where the one bound is
below `2 ^ 30` no bit of a rate is lost, and where there is a leaf for every function no ring is too
large to be numbered. A profile may allow larger rates, and a configuration without services any number
of functions.
-/

namespace RateTree

variable {δ : Type}

/-- The ring that a query asks about. -/
def RateQuery.ring (query : RateQuery) (config : DeviceConfig) : Nat :=
  query.vf * config.banksPerVf + query.bank

/-- Whether a query names a function of the device and one of its banks. -/
def RateQuery.Inside (query : RateQuery) (config : DeviceConfig) : Prop :=
  query.vf < config.totalVfs ∧ query.bank < config.banksPerVf

/-- Only a device that limits no service has rings too large to be numbered. -/
theorem RateQuery.unserved_of_large {config : DeviceConfig} (valid : config.validate = .ok ())
    {query : RateQuery} (inside : query.Inside config) (large : 2 ^ 32 ≤ query.ring config) :
    config.services = [] := by
  by_contra served
  rcases List.exists_mem_of_ne_nil _ served with ⟨service, enabled⟩
  have few := DeviceConfig.ring_lt valid enabled inside.1 inside.2
  rw [RateQuery.ring] at large
  omega

namespace RateReply

/-- A rate and a bank in a reply: the bank in the two lowest bits, and of the rate what fits above. -/
structure Shows (reply : RateReply) (kind : RateKind) (rate bank : Nat) : Prop where
  messageType_eq : reply.messageType = kind.replyType
  data_lt : reply.data < 2 ^ 32
  low_bits : reply.data % 4 = bank
  value_eq : reply.value = rate % 2 ^ 30
  /-- The rate is carried whole exactly if it fits. -/
  whole_iff : reply.value = rate ↔ rate < 2 ^ 30

theorem packed_eq (rate : Nat) {bank : Nat} (small : bank < 4) :
    rate * 4 % 0x100000000 ||| bank = rate % 2 ^ 30 * 4 + bank := by
  have shifted : rate * 4 % 0x100000000 = rate % 2 ^ 30 * 4 :=
    Nat.mul_mod_mul_right 4 rate (2 ^ 30)
  have apart : 2 ^ 2 * (rate % 2 ^ 30) + bank = 2 ^ 2 * (rate % 2 ^ 30) ||| bank :=
    Nat.two_pow_add_eq_or_of_lt small _
  rw [shifted, Nat.mul_comm (rate % 2 ^ 30) 4]
  exact apart.symm

theorem shows_packed (kind : RateKind) (rate : Nat) {bank : Nat} (small : bank < 4) :
    Shows ⟨kind.replyType, rate * 4 % 0x100000000 ||| bank⟩ kind rate bank := by
  rw [packed_eq rate small]
  have value_eq : (rate % 2 ^ 30 * 4 + bank) / 4 = rate % 2 ^ 30 := by omega
  refine ⟨rfl, ?_, ?_, value_eq, ?_⟩
  · simp only
    omega
  · simp only
    omega
  · rw [value, value_eq]
    exact Nat.mod_eq_iff_lt (by decide)

end RateReply

namespace Tree

/-- The rate of a ring: that of the leaf that owns it, and zero where no leaf does. -/
inductive RingRate (tree : Tree) (ring : Nat) (kind : RateKind) : Nat → Prop where
  | owned {id : NodeId} {sla : Sla} {rings : List Nat} (owns : tree.Owns id sla rings)
      (level : id.kind? = some .leaf) (mem : ring ∈ rings) : RingRate tree ring kind (sla.rate kind)
  | unowned (unclaimed : ∀ id sla rings, tree.Owns id sla rings → id.kind? = some .leaf →
      ring ∉ rings) : RingRate tree ring kind 0

namespace WellFormed

variable {tree : Tree} {ring rate : Nat} {kind : RateKind}

/-- A ring has one rate, since it has one owner at most. -/
theorem ringRate_unique (sound : tree.WellFormed) {other : Nat}
    (looked_up : tree.RingRate ring kind rate) (again : tree.RingRate ring kind other) :
    rate = other := by
  cases looked_up with
  | @owned id sla rings owns level mem =>
      cases again with
      | @owned id' sla' rings' owns' level' mem' =>
          have belongs : LinkTable.Belongs id rings .ringToLeaf ring := ⟨level, mem⟩
          have other_belongs : LinkTable.Belongs id' rings' .ringToLeaf ring := ⟨level', mem'⟩
          have same := sound.owner_unique owns owns' belongs other_belongs
          subst same
          rw [(owns.unique owns').1]
      | unowned unclaimed => exact absurd mem (unclaimed _ _ _ owns level)
  | unowned unclaimed =>
      cases again with
      | owned owns level mem => exact absurd mem (unclaimed _ _ _ owns level)
      | unowned _ => rfl

theorem ringRate_rateForRing (sound : tree.WellFormed) {vf bank : Nat}
    (bank_lt : bank < tree.config.banksPerVf)
    (small : vf * tree.config.banksPerVf + bank < 2 ^ 32) (kind : RateKind) :
    tree.RingRate (vf * tree.config.banksPerVf + bank) kind
      (tree.rateForRing (vf * tree.config.banksPerVf + bank) kind) := by
  rw [rateForRing_eq]
  cases picked : tree.slaOfRing? (vf * tree.config.banksPerVf + bank) with
  | some sla =>
      rcases sound.owner_of_slaOfRing? bank_lt small picked with ⟨id, rings, owns, level, mem⟩
      exact .owned owns level mem
  | none =>
      exact .unowned fun id sla rings owns level =>
        sound.not_mem_of_slaOfRing? bank_lt small picked owns level

/-- No ring has a rate above the largest of a service of the device. -/
theorem ringRate_le (sound : tree.WellFormed) (looked_up : tree.RingRate ring kind rate) :
    rate = 0 ∨ ∃ service ∈ tree.config.services, rate ≤ tree.profile.serviceMax service := by
  cases looked_up with
  | @owned id sla rings owns level mem =>
      rcases sound.carries_of_owns owns with ⟨node, found, -, -, carries⟩
      have enabled := (sound.enabled node.service).1 (sound.served id node found)
      have peak := carries.pir_le_max
      have committed := carries.cir_le_pir
      rw [carries.service_eq] at peak
      refine .inr ⟨node.service, enabled, ?_⟩
      cases kind with
      | cir => exact Nat.le_trans committed peak
      | pir => exact peak
  | unowned _ => exact .inl rfl

end WellFormed

theorem lt_of_ringNumber {vf bank banksPerVf ring : Nat}
    (numbered : ringNumber vf bank banksPerVf = .ok ring) : ring < 2 ^ 32 := by
  simp only [ringNumber, Outcome.bind_eq_ok] at numbered
  rcases numbered with ⟨first, -, sum⟩
  simp only [Word.add] at sum
  split at sum
  · next fits => rwa [Except.ok.inj sum] at fits
  · contradiction

theorem reply_of_outside {tree : Tree} {query : RateQuery} (outside : ¬query.Inside tree.config) :
    tree.reply query =
      .error (.error (.invalidArgument (.rateQueryOutOfRange query.vf query.bank))) := by
  have unknown : tree.config.totalVfs ≤ query.vf ∨ tree.config.banksPerVf ≤ query.bank := by
    rw [RateQuery.Inside] at outside
    omega
  simp only [reply, if_pos unknown]
  rfl

theorem reply_of_inside {tree : Tree} {query : RateQuery} (inside : query.Inside tree.config)
    (small : query.ring tree.config < 2 ^ 32) :
    tree.reply query = .ok ⟨query.kind.replyType,
      tree.rateForRing (query.ring tree.config) query.kind * 4 % 0x100000000 ||| query.bank⟩ :=
  reply_eq inside.1 inside.2 small

theorem reply_of_large {tree : Tree} {query : RateQuery} (inside : query.Inside tree.config)
    (large : 2 ^ 32 ≤ query.ring tree.config) :
    ∃ fault, tree.reply query = .error (.fault fault) := by
  rcases inside with ⟨function, bank_lt⟩
  have known : ¬(tree.config.totalVfs ≤ query.vf ∨ tree.config.banksPerVf ≤ query.bank) := by omega
  cases numbered : ringNumber query.vf query.bank tree.config.banksPerVf with
  | error fault =>
      refine ⟨fault, ?_⟩
      simp only [reply, if_neg known, numbered]
      rfl
  | ok ring =>
      have fits := lt_of_ringNumber numbered
      rw [ringNumber_eq_ok numbered] at fits
      exact absurd fits (Nat.not_lt.2 large)

end Tree

namespace Limiter

variable [RegisterAccess δ] [BlockMemory δ] [AdminTransport δ]

theorem Reachable.ringRate {profile : Profile} {config : DeviceConfig} {initial : δ → Prop}
    {moves : δ → δ → Prop} {limiter : Limiter δ}
    (reached : Reachable profile config initial moves limiter) {query : RateQuery}
    (inside : query.Inside config) (small : query.ring config < 2 ^ 32) :
    limiter.tree.RingRate (query.ring config) query.kind
      (limiter.tree.rateForRing (query.ring config) query.kind) := by
  rcases reached.constants with ⟨-, rfl⟩
  exact reached.wellFormed.ringRate_rateForRing inside.2 small query.kind

/-- In every run, a query for a function or a bank that the device does not have is refused, and any other
is answered with the low thirty bits of the rate of its ring above the bank. The whole rate is carried
exactly if it is below `2 ^ 30`, as every rate is if no service may ask for more. A query is left without
an answer only if its ring is too large to be numbered, and so only where no service is limited. -/
theorem rate_replies_carry_thirty_bits {profile : Profile} {config : DeviceConfig}
    {initial : δ → Prop} {moves : δ → δ → Prop} {limiter : Limiter δ}
    (reached : Reachable profile config initial moves limiter) (query : RateQuery) :
    (¬query.Inside config → limiter.tree.reply query =
        .error (.error (.invalidArgument (.rateQueryOutOfRange query.vf query.bank)))) ∧
      (query.Inside config → query.ring config < 2 ^ 32 →
        ∃ rate reply, limiter.tree.RingRate (query.ring config) query.kind rate ∧
          limiter.tree.reply query = .ok reply ∧ reply.Shows query.kind rate query.bank ∧
          ((∀ service ∈ config.services, profile.serviceMax service < 2 ^ 30) →
            reply.value = rate)) ∧
      (query.Inside config → 2 ^ 32 ≤ query.ring config →
        config.services = [] ∧ ∃ fault, limiter.tree.reply query = .error (.fault fault)) := by
  have sound := reached.wellFormed
  rcases reached.constants with ⟨rfl, rfl⟩
  refine ⟨?_, ?_, ?_⟩
  · intro outside
    exact Tree.reply_of_outside outside
  · intro inside small
    have four := Nat.lt_of_lt_of_le inside.2 (DeviceConfig.bounds_of_validate sound.config_valid).1
    have looked_up := reached.ringRate inside small
    have shows := RateReply.shows_packed query.kind
      (limiter.tree.rateForRing (query.ring limiter.tree.config) query.kind) four
    refine ⟨_, _, looked_up, Tree.reply_of_inside inside small, shows, ?_⟩
    intro modest
    apply shows.whole_iff.2
    rcases sound.ringRate_le looked_up with none | ⟨service, enabled, below⟩
    · exact lt_of_eq_of_lt none (by decide)
    · exact Nat.lt_of_le_of_lt below (modest service enabled)
  · intro inside large
    exact ⟨RateQuery.unserved_of_large sound.config_valid inside large,
      Tree.reply_of_large inside large⟩

/-- In a run on a bench, the reply to the function of the first leaf carries its whole rate. -/
theorem rate_replies_carry_thirty_bits_on_bench :
    ∃ limiter : Limiter Bench, Reachable Profile.gen4 smallConfig (fun _ => True) (fun _ _ => True)
        limiter ∧
      ∃ reply, limiter.tree.reply ⟨.pir, 0, 1⟩ = .ok reply ∧ reply.value = 2000 ∧
        reply.data % 4 = 1 := by
  have passed : comesUp (fun limiter =>
      decide ((withFirstLeaf limiter).tree.rateForRing 1 .pir = 2000)) = true := by
    decide +kernel
  rcases exists_start passed with ⟨tree, bench, up, result⟩
  have reached : Reachable Profile.gen4 smallConfig (fun _ => True) (fun _ _ => True)
      (withFirstLeaf ⟨tree, bench⟩) := .performed (.createSla firstLeaf) (.started trivial up)
  have inside : RateQuery.Inside ⟨.pir, 0, 1⟩ smallConfig := ⟨by decide, by decide⟩
  have modest : ∀ service ∈ smallConfig.services, Profile.gen4.serviceMax service < 2 ^ 30 := by
    decide
  rcases (rate_replies_carry_thirty_bits reached ⟨.pir, 0, 1⟩).2.1 inside (by decide) with
    ⟨rate, reply, looked_up, answer, shows, whole⟩
  have known := reached.ringRate inside (by decide)
  have rate_eq : rate = 2000 :=
    (reached.wellFormed.ringRate_unique looked_up known).trans (of_decide_eq_true result)
  exact ⟨_, reached, reply, answer, (whole modest).trans rate_eq, shows.low_bits⟩

/-! ## Rates and rings out of bounds -/

/-- A device whose asymmetric crypto is measured against a large reference. -/
def wideProfile : Profile := { Profile.gen4 with sliceReference := 0x80000000 }

/-- One asymmetric service and one function. -/
def asymConfig : DeviceConfig := { smallConfig with services := [.asym] }

/-- A request for a rate that does not fit a reply. -/
def wideLeaf : Sla :=
  .leaf (.ofSlot .leaf 0) (.ofSlot .cluster 0) .asym ⟨0, 1⟩ (2 ^ 30) (2 ^ 30)

/-- No service, and so many functions that their last ring has no number of 32 bits. -/
def unservedConfig : DeviceConfig :=
  { smallConfig with services := [], totalVfs := 2 ^ 30 + 1, enabledVfs := 0 }

/-- A function whose leaf has a rate of `2 ^ 30` is told a rate of zero, and a function whose rings are too
many to be numbered is told nothing at all. -/
theorem replies_not_always_exact :
    (∃ limiter : Limiter Bench,
      Reachable wideProfile asymConfig (· = Bench.fresh) (fun _ _ => False) limiter ∧
        RateQuery.Inside ⟨.cir, 0, 0⟩ asymConfig ∧ limiter.tree.RingRate 0 .cir (2 ^ 30) ∧
        limiter.tree.reply ⟨.cir, 0, 0⟩ = .ok ⟨RateKind.cir.replyType, 0⟩) ∧
      ∃ limiter : Limiter Bench,
        Reachable Profile.gen4 unservedConfig (· = Bench.fresh) (fun _ _ => False) limiter ∧
          RateQuery.Inside ⟨.cir, 2 ^ 30, 0⟩ unservedConfig ∧
          limiter.tree.reply ⟨.cir, 2 ^ 30, 0⟩ = .error (.fault .multiplyOverflow) := by
  constructor
  · have passed : comesUpWith wideProfile asymConfig (fun limiter =>
        let after := ((Operation.createSla wideLeaf).run limiter).2
        decide (after.tree.rateForRing 0 .cir = 2 ^ 30) &&
          decide (after.tree.reply ⟨.cir, 0, 0⟩ = .ok ⟨RateKind.cir.replyType, 0⟩)) = true := by
      decide +kernel
    rcases exists_start_with passed with ⟨tree, bench, up, result⟩
    simp only [Bool.and_eq_true, decide_eq_true_eq] at result
    rcases result with ⟨rate, answer⟩
    have reached : Reachable wideProfile asymConfig (· = Bench.fresh) (fun _ _ => False) _ :=
      .performed (.createSla wideLeaf) (.started rfl up)
    have inside : RateQuery.Inside ⟨.cir, 0, 0⟩ asymConfig := ⟨by decide, by decide⟩
    have known := reached.ringRate inside (by decide)
    exact ⟨_, reached, inside, rate ▸ known, answer⟩
  · have passed : comesUpWith Profile.gen4 unservedConfig (fun limiter =>
        decide (limiter.tree.reply ⟨.cir, 2 ^ 30, 0⟩ = .error (.fault .multiplyOverflow))) =
          true := by
      decide +kernel
    rcases exists_start_with passed with ⟨tree, bench, up, answer⟩
    exact ⟨_, .started rfl up, ⟨by decide, by decide⟩, of_decide_eq_true answer⟩

end Limiter

end RateTree
