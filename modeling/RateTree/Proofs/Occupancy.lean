import RateTree.Proofs.Reports

/-!
# How many agreements leaves hold

The report of capabilities allows for one agreement for each enabled service and each enabled function.
What keeps a second leaf from being given an agreement for the same service and function are the rings:
the two would take the same ones. The report is therefore never exceeded by the agreements of enabled
functions for services that some bank carries. A request may also name a function that the device
supports and that is not enabled, and a service that no bank carries takes no rings; agreements of these
kinds are counted as well, and nothing bounds them but the number of leaves.
-/

namespace RateTree

namespace DeviceConfig

variable {config : DeviceConfig}

/-- Whether the report of capabilities allows for an agreement: its function is enabled, and some bank
carries its service. -/
def allowsFor (config : DeviceConfig) (sla : Sla) : Bool :=
  sla.owner.vfNumber?.any (fun vf => vf < config.enabledVfs) &&
    !(config.banksFor sla.service).isEmpty

theorem allowsFor_iff {sla : Sla} :
    config.allowsFor sla = true ↔
      (∃ vf < config.enabledVfs, sla.owner.vfNumber? = some vf) ∧
        config.banksFor sla.service ≠ [] := by
  simp [allowsFor, Option.any_eq_true, and_comm]

end DeviceConfig

namespace Tree

variable {tree : Tree} {sla other : Sla}

namespace WellFormed

variable (sound : tree.WellFormed)

include sound

theorem maxSlas_eq :
    tree.capabilities.maxSlas = tree.config.services.length * tree.config.enabledVfs := by
  rcases DeviceConfig.bounds_of_validate sound.config_valid with ⟨-, leaves, enabled⟩
  have fits : tree.config.services.length * tree.config.enabledVfs ≤ Word.size 32 - 1 := by
    calc tree.config.services.length * tree.config.enabledVfs
        ≤ tree.config.services.length * tree.config.totalVfs := Nat.mul_le_mul_left _ enabled
      _ = tree.config.totalVfs * tree.config.services.length := Nat.mul_comm _ _
      _ ≤ NodeKind.leaf.capacity := leaves
      _ ≤ Word.size 32 - 1 := by decide
  exact Nat.min_eq_left fits

theorem usedSlas_eq : tree.capabilities.usedSlas = (tree.nodes.agreements .leaf).length :=
  (sound.length_agreements .leaf).symm

/-- A leaf's agreement is for an enabled service and a function of the device, whose rings it takes. -/
theorem function_of_mem_agreements (mem : sla ∈ tree.nodes.agreements .leaf) :
    sla.service ∈ tree.config.services ∧ ∃ vf rings,
      sla.owner.checkedVf tree.config.totalVfs = .ok vf ∧
        tree.config.ringsFor sla.owner sla.service = .ok rings ∧ tree.Owns sla.node sla rings ∧
        sla.node.kind? = some .leaf := by
  rcases List.mem_filterMap.1 mem with ⟨leaf, leaf_mem, picked⟩
  rcases Option.ite_none_right_eq_some.1 picked with ⟨bound, carried⟩
  rcases sound.find?_of_mem_nodes leaf_mem with ⟨found, level⟩
  have carries := sound.carries_of_sla found carried
  rcases carries.rings with ⟨rings, known⟩
  have function := known
  rw [sound.ringsOf_leaf found level carried] at function
  have checked := function
  simp only [DeviceConfig.ringsFor, Outcome.bind_eq_ok, Outcome.liftError_eq_ok] at checked
  rcases checked with ⟨vf, checked, -⟩
  refine ⟨?_, vf, rings, checked, function, ?_, ?_⟩
  · rw [carries.service_eq]
    exact (sound.enabled leaf.service).1 (sound.served _ leaf found)
  · rw [carries.node_eq]
    exact ⟨leaf, found, bound, carried, known⟩
  · rw [carries.node_eq, (sound.placed _ leaf found).2, level]

/-- No two leaves have agreements for one function and one service that some bank carries. -/
theorem eq_of_same_function (mem : sla ∈ tree.nodes.agreements .leaf)
    (other_mem : other ∈ tree.nodes.agreements .leaf) (service_eq : sla.service = other.service)
    (function_eq : sla.owner.vfNumber? = other.owner.vfNumber?)
    (carried : tree.config.banksFor sla.service ≠ []) : sla = other := by
  rcases sound.function_of_mem_agreements mem with ⟨enabled, vf, rings, checked, known, owns, level⟩
  rcases sound.function_of_mem_agreements other_mem with
    ⟨-, _, owned, -, other_known, other_owns, other_level⟩
  -- A bank that carries the service gives both leaves one ring of the function.
  rcases List.exists_mem_of_ne_nil _ carried with ⟨bank, bank_mem⟩
  rcases (DeviceConfig.mem_banksFor sound.config_valid).1 bank_mem with ⟨bank_lt, carries⟩
  have number := PciAddress.vfNumber?_of_checkedVf checked
  have small : vf * tree.config.banksPerVf + bank < 2 ^ 32 :=
    (DeviceConfig.ring_lt sound.config_valid enabled (PciAddress.lt_of_checkedVf checked)
      bank_lt).trans (by decide)
  have belongs : LinkTable.Belongs sla.node rings .ringToLeaf (vf * tree.config.banksPerVf + bank) :=
    ⟨level, (DeviceConfig.mem_ringsFor sound.config_valid known bank_lt small).2 ⟨number, carries⟩⟩
  have other_belongs :
      LinkTable.Belongs other.node owned .ringToLeaf (vf * tree.config.banksPerVf + bank) :=
    ⟨other_level, (DeviceConfig.mem_ringsFor sound.config_valid other_known bank_lt small).2
      ⟨function_eq ▸ number, service_eq ▸ carries⟩⟩
  rw [← sound.owner_unique owns other_owns belongs other_belongs] at other_owns
  exact (owns.unique other_owns).1

theorem length_allowed_le :
    ((tree.nodes.agreements .leaf).filter tree.config.allowsFor).length ≤
      tree.capabilities.maxSlas := by
  let allowed := (tree.nodes.agreements .leaf).filter tree.config.allowsFor
  let entry (sla : Sla) : Service × Option Nat := (sla.service, sla.owner.vfNumber?)
  -- Each has a service and a function of its own, of which there are so many pairs.
  have apart : (allowed.map entry).Nodup := by
    refine List.Nodup.map_on ?_ ((sound.nodup_agreements .leaf).filter _)
    intro sla mem other other_mem same
    rcases List.mem_filter.1 mem with ⟨mem, allowed⟩
    have carried := (DeviceConfig.allowsFor_iff.1 allowed).2
    exact sound.eq_of_same_function mem (List.mem_filter.1 other_mem).1 (congrArg Prod.fst same)
      (congrArg Prod.snd same) carried
  have listed : allowed.map entry ⊆
      tree.config.services ×ˢ (List.range tree.config.enabledVfs).map some := by
    intro pair mem
    rcases List.mem_map.1 mem with ⟨sla, sla_mem, rfl⟩
    rcases List.mem_filter.1 sla_mem with ⟨sla_mem, allowed⟩
    rcases (DeviceConfig.allowsFor_iff.1 allowed).1 with ⟨vf, below, number⟩
    refine List.mem_product.2 ⟨(sound.function_of_mem_agreements sla_mem).1, ?_⟩
    exact List.mem_map.2 ⟨vf, List.mem_range.2 below, number.symm⟩
  calc allowed.length
      = (allowed.map entry).length := by rw [List.length_map]
    _ ≤ (tree.config.services ×ˢ (List.range tree.config.enabledVfs).map some).length :=
        (List.subperm_of_subset apart listed).length_le
    _ = tree.config.services.length * tree.config.enabledVfs := by
        rw [List.length_product, List.length_map, List.length_range]
    _ = tree.capabilities.maxSlas := sound.maxSlas_eq.symm

/-- Where every function is enabled and every service has a bank, the report allows for every
agreement. -/
theorem usedSlas_le_maxSlas (every_function : tree.config.enabledVfs = tree.config.totalVfs)
    (every_service : ∀ service ∈ tree.config.services, tree.config.banksFor service ≠ []) :
    tree.capabilities.usedSlas ≤ tree.capabilities.maxSlas := by
  have every : ∀ sla ∈ tree.nodes.agreements .leaf, tree.config.allowsFor sla = true := by
    intro sla mem
    rcases sound.function_of_mem_agreements mem with ⟨enabled, vf, _, checked, -⟩
    refine DeviceConfig.allowsFor_iff.2 ⟨⟨vf, ?_, ?_⟩, every_service sla.service enabled⟩
    · rw [every_function]
      exact PciAddress.lt_of_checkedVf checked
    · exact PciAddress.vfNumber?_of_checkedVf checked
  rw [sound.usedSlas_eq, ← List.filter_eq_self.2 every]
  exact sound.length_allowed_le

end WellFormed

end Tree

namespace Limiter

/-- In every run the agreements of enabled functions for services that some bank carries are at most as
many as reported, one for each service and enabled function. Where every function is enabled and every
service has a bank, this bounds the agreements of all leaves, and those that are left make up the
rest. -/
theorem allowed_slas_bounded {δ : Type} [RegisterAccess δ] [BlockMemory δ] [AdminTransport δ]
    {profile : Profile} {config : DeviceConfig} {initial : δ → Prop} {moves : δ → δ → Prop}
    {limiter : Limiter δ} (reached : Reachable profile config initial moves limiter) :
    let report := limiter.tree.capabilities
    report.maxSlas = config.services.length * config.enabledVfs ∧
    report.usedSlas = (limiter.tree.nodes.agreements .leaf).length ∧
    ((limiter.tree.nodes.agreements .leaf).filter config.allowsFor).length ≤ report.maxSlas ∧
    report.usedSlas + report.availableSlas = max report.usedSlas report.maxSlas ∧
    (config.enabledVfs = config.totalVfs →
      (∀ service ∈ config.services, config.banksFor service ≠ []) →
      report.usedSlas ≤ report.maxSlas ∧
        report.usedSlas + report.availableSlas = report.maxSlas) := by
  have sound := reached.wellFormed
  rcases reached.constants with ⟨-, rfl⟩
  have rest : limiter.tree.capabilities.availableSlas =
      limiter.tree.capabilities.maxSlas - limiter.tree.capabilities.usedSlas := rfl
  refine ⟨sound.maxSlas_eq, sound.usedSlas_eq, sound.length_allowed_le, by omega, ?_⟩
  intro every_function every_service
  have bounded := sound.usedSlas_le_maxSlas every_function every_service
  exact ⟨bounded, by omega⟩

theorem allowed_slas_bounded_on_bench :
    ∃ limiter : Limiter Bench,
      Reachable Profile.gen4 smallConfig (Eq Bench.fresh) (fun _ _ => False) limiter ∧
        smallConfig.enabledVfs = smallConfig.totalVfs ∧
        (∀ service ∈ smallConfig.services, smallConfig.banksFor service ≠ []) ∧
        limiter.tree.capabilities.usedSlas = 1 ∧ limiter.tree.capabilities.maxSlas = 2 ∧
        limiter.tree.capabilities.usedSlas + limiter.tree.capabilities.availableSlas = 2 := by
  have passed : comesUp (fun limiter =>
      decide ((withFirstLeaf limiter).tree.capabilities.usedSlas = 1)) = true := by
    decide +kernel
  rcases exists_start passed with ⟨tree, bench, up, result⟩
  have used := of_decide_eq_true result
  have reached : Reachable Profile.gen4 smallConfig (Eq Bench.fresh) (fun _ _ => False)
      (withFirstLeaf ⟨tree, bench⟩) := .performed (.createSla firstLeaf) (.started rfl up)
  have banks : ∀ service ∈ smallConfig.services, smallConfig.banksFor service ≠ [] := by decide
  rcases allowed_slas_bounded reached with ⟨most, -, -, -, full⟩
  rcases full rfl banks with ⟨-, together⟩
  exact ⟨_, reached, rfl, banks, used, most, together.trans most⟩

/-- One function that the device supports and that is not enabled. -/
def dormantConfig : DeviceConfig :=
  { DeviceConfig.gen4 with services := [.sym], totalVfs := 1, enabledVfs := 0 }

/-- One function, none of whose banks carries anything. -/
def banklessConfig : DeviceConfig :=
  { DeviceConfig.gen4 with services := [.sym], totalVfs := 1, enabledVfs := 1, ringMap := ⟨0⟩ }

/-- A request for a second leaf of the function that the first leaf is for. -/
def twinLeaf : Sla := { firstLeaf with node := .ofSlot .leaf 1 }

/-- The limiter after a second leaf was made and asked for. -/
def withTwinLeaf (limiter : Limiter Bench) : Limiter Bench :=
  ((Operation.createSla twinLeaf).run
    ((Operation.createNode .leaf .sym).run (withFirstLeaf limiter)).2).2

/-- A function that is not enabled holds an agreement where none is allowed for, and a function without
banks holds two where one is. -/
theorem allowed_slas_exceeded :
    (∃ limiter : Limiter Bench,
      Reachable Profile.gen4 dormantConfig (Eq Bench.fresh) (fun _ _ => False) limiter ∧
        limiter.tree.capabilities.usedSlas = 1 ∧ limiter.tree.capabilities.maxSlas = 0 ∧
        limiter.tree.capabilities.availableSlas = 0) ∧
      ∃ limiter : Limiter Bench,
        Reachable Profile.gen4 banklessConfig (Eq Bench.fresh) (fun _ _ => False) limiter ∧
          limiter.tree.capabilities.usedSlas = 2 ∧ limiter.tree.capabilities.maxSlas = 1 ∧
          limiter.tree.capabilities.availableSlas = 0 := by
  constructor
  · have passed : comesUpWith Profile.gen4 dormantConfig (fun limiter =>
        decide ((withFirstLeaf limiter).tree.capabilities.usedSlas = 1 ∧
          (withFirstLeaf limiter).tree.capabilities.maxSlas = 0 ∧
          (withFirstLeaf limiter).tree.capabilities.availableSlas = 0)) = true := by
      decide +kernel
    rcases exists_start_with passed with ⟨tree, bench, up, result⟩
    exact ⟨_, .performed (.createSla firstLeaf) (.started rfl up), of_decide_eq_true result⟩
  · have passed : comesUpWith Profile.gen4 banklessConfig (fun limiter =>
        decide ((withTwinLeaf limiter).tree.capabilities.usedSlas = 2 ∧
          (withTwinLeaf limiter).tree.capabilities.maxSlas = 1 ∧
          (withTwinLeaf limiter).tree.capabilities.availableSlas = 0)) = true := by
      decide +kernel
    rcases exists_start_with passed with ⟨tree, bench, up, result⟩
    exact ⟨_, .performed (.createSla twinLeaf) (.performed (.createNode .leaf .sym)
      (.performed (.createSla firstLeaf) (.started rfl up))), of_decide_eq_true result⟩

end Limiter

end RateTree
