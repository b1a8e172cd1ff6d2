import RateTree.Proofs.Isolation

/-!
# Numbers of functions

The address of a function has no room for its whole number: the device number is one byte, and there are
eight functions to a device, so that functions whose numbers are 2048 apart share an address. The number
is read back from an address without what did not fit. On a device whose configuration passed its checks,
a request on behalf of a function therefore concerns the function with the same low eleven bits, if there
is one, and leaves the rings of the others alone.
-/

namespace RateTree

namespace PciAddress

variable {address : PciAddress} {vf number totalVfs : Nat}

/-- How many places there are for functions; one is that of the physical function. -/
def places : Nat := 2048

theorem ofVf_of_lt (fits : vf + 1 < Word.size 32) :
    ofVf vf = .ok ⟨(vf + 1) / 8 % 256, (vf + 1) % 8⟩ := by
  rw [ofVf, Word.add, if_pos fits]
  rfl

theorem ofVf_max32 : ofVf Word.max32 = .error .addOverflow := by decide +kernel

theorem parts_of_ofVf (placed : ofVf vf = .ok address) :
    address.device = (vf + 1) / 8 % 256 ∧ address.function = (vf + 1) % 8 := by
  by_cases fits : vf + 1 < Word.size 32
  · rw [ofVf_of_lt fits] at placed
    cases placed
    exact ⟨rfl, rfl⟩
  · rw [ofVf, Word.add, if_neg fits] at placed
    cases placed

/-- What is read back from an address; the last place before the wrap is read as the physical
function. -/
theorem vfNumber?_of_ofVf (placed : ofVf vf = .ok address) :
    address.vfNumber? = some number ↔ number = vf % places ∧ number + 1 < places := by
  rcases parts_of_ofVf placed with ⟨device, function⟩
  rw [vfNumber?, device, function, places]
  split <;> simp only [reduceCtorEq, Option.some.injEq, false_iff, not_and] <;> omega

/-- An address is that of a function of the device, or it is refused as an argument. -/
theorem checkedVf_cases (address : PciAddress) (totalVfs : Nat) :
    (∃ vf, address.checkedVf totalVfs = .ok vf) ∨
      ∃ reason, address.checkedVf totalVfs = .error (.invalidArgument reason) := by
  simp only [checkedVf]
  split
  · exact .inr ⟨_, rfl⟩
  · split
    · split
      · exact .inl ⟨_, rfl⟩
      · exact .inr ⟨_, rfl⟩
    · exact .inr ⟨_, rfl⟩

/-- Where there are few functions, an address is accepted exactly if the number that is read back from it
is that of one of them. -/
theorem checkedVf_eq_ok_of_ofVf (few : totalVfs ≤ NodeKind.leaf.capacity)
    (placed : ofVf vf = .ok address) :
    address.checkedVf totalVfs = .ok number ↔ number = vf % places ∧ number < totalVfs := by
  constructor
  · intro checked
    have known := (vfNumber?_of_ofVf placed).1 (vfNumber?_of_checkedVf checked)
    exact ⟨known.1, lt_of_checkedVf checked⟩
  · rintro ⟨rfl, below⟩
    have small : vf % 2048 < 64 := below.trans_le few
    have known : address.vfNumber? = some (vf % places) :=
      (vfNumber?_of_ofVf placed).2 ⟨rfl, by simp only [places]; omega⟩
    rcases parts_of_ofVf placed with ⟨device, function⟩
    have inside : ¬(maxDevice < address.device ∨ maxFunction < address.function) := by
      rw [device, function, maxDevice, maxFunction]
      omega
    rw [checkedVf, if_neg inside, known]
    exact if_pos below

end PciAddress

/-! ## Requests -/

open PciAddress (ofVf places)
open DeviceView (intact)

namespace Limiter

variable {δ : Type} [LinkedDevice δ] {limiter : Limiter δ} {request : Sla} {vf : Nat}

/-- The entries of the rings of every function but one are the same as before. -/
def SparesRings (config : DeviceConfig) (vf : Nat) (before after : δ) : Prop :=
  ∀ other bank, other ≠ vf → bank < config.banksPerVf →
    other * config.banksPerVf + bank < LinkTable.ringToLeaf.extent →
    linkEntry after .ringToLeaf (other * config.banksPerVf + bank) =
      linkEntry before .ringToLeaf (other * config.banksPerVf + bank)

/-- A new agreement of a leaf takes rings of the function at its address only. -/
theorem not_belongs_of_accepted {tree : Tree} (sound : tree.WellFormed) {plan : Tree.CreatePlan}
    {node : Node} (accepted : plan.Accepted tree request node) (level : request.kind = .leaf)
    (placed : ofVf vf = .ok request.owner) {other bank : Nat} (different : other ≠ vf % places)
    (bank_lt : bank < tree.config.banksPerVf)
    (inside : other * tree.config.banksPerVf + bank < LinkTable.ringToLeaf.extent) :
    ¬LinkTable.Belongs plan.sla.node plan.rings .ringToLeaf
      (other * tree.config.banksPerVf + bank) := by
  have owner_eq : plan.sla.owner = request.owner := by rw [accepted.sla_eq]; rfl
  have kind_eq : plan.sla.kind = .leaf := by rw [accepted.sla_eq]; exact level
  have known : tree.config.ringsFor request.owner plan.sla.service = .ok plan.rings := by
    have rings := accepted.rings
    rwa [Tree.ringsOf, kind_eq, owner_eq] at rings
  rintro ⟨-, mem⟩
  have small : other * tree.config.banksPerVf + bank < 2 ^ 32 := inside.trans (by decide)
  have own := ((DeviceConfig.mem_ringsFor sound.config_valid known bank_lt small).1 mem).1
  exact different ((PciAddress.vfNumber?_of_ofVf placed).1 own).1

theorem applyCreate_sparesRings {tree : Tree} (sound : tree.WellFormed) {plan : Tree.CreatePlan}
    (planned : tree.planCreate request = .ok plan) (level : request.kind = .leaf)
    (placed : ofVf vf = .ok request.owner) (device : δ) :
    Action.Ensures intact (applyCreate plan) device
      (fun _ => SparesRings tree.config (vf % places) device)
      (SparesRings tree.config (vf % places) device) := by
  rcases Tree.planCreate_accepted planned with ⟨node, accepted⟩
  have fits := (sound.commitCreate planned).fits (accepted.owns sound)
  refine (applyCreate_ensures fits).weaken ?_ ?_
  · intro _ after linked other bank different bank_lt inside
    exact linked.kept .ringToLeaf _ inside
      (not_belongs_of_accepted sound accepted level placed different bank_lt inside)
  · intro after withdrawn other bank different bank_lt inside
    rcases withdrawn.links .ringToLeaf _ inside with same | ⟨belongs, -⟩
    · exact same
    · exact absurd belongs
        (not_belongs_of_accepted sound accepted level placed different bank_lt inside)

theorem createSla_sparesRings (sound : limiter.tree.WellFormed) (level : request.kind = .leaf)
    (placed : ofVf vf = .ok request.owner)
    (still : intact (createSla request limiter).2.device) :
    SparesRings limiter.tree.config (vf % places) limiter.device
      (createSla request limiter).2.device := by
  have ended := carryOut_cases (fun tree => tree.planCreate request) applyCreate Tree.commitCreate
    (fun plan => plan.sla.id) limiter
  rw [← createSla] at ended
  generalize createSla request limiter = finished at ended still ⊢
  cases ended with
  | refused planned => exact fun _ _ _ _ _ => rfl
  | @failed plan failure device planned applied =>
      have spares := applyCreate_sparesRings sound planned level placed limiter.device
      cases failure with
      | error cause => exact (spares.of_error applied).2
      | fault cause => exact absurd still (spares.of_fault applied)
  | done planned applied =>
      exact ((applyCreate_sparesRings sound planned level placed limiter.device).of_ok applied).2

/-- A leaf that got an agreement belongs to a function of the device, the one at the address of the
request. -/
theorem createSla_owns (sound : limiter.tree.WellFormed) (level : request.kind = .leaf) {id : NodeId}
    (done : (createSla request limiter).1 = .ok id) :
    ∃ sla rings number, (createSla request limiter).2.tree.Owns id sla rings ∧
      sla.owner = request.owner ∧
      request.owner.checkedVf limiter.tree.config.totalVfs = .ok number := by
  rcases ended : createSla request limiter with ⟨outcome, after⟩
  rw [ended] at done
  subst done
  rcases carryOut_eq_ok ended with ⟨plan, planned, -, id_eq, tree_eq⟩
  rcases Tree.planCreate_accepted planned with ⟨node, accepted⟩
  rcases accepted.owner level with ⟨number, checked⟩
  have owns := accepted.owns sound
  have named : plan.sla.node = id := by rw [id_eq, accepted.sla_eq]; rfl
  rw [named, ← tree_eq] at owns
  exact ⟨plan.sla, plan.rings, number, owns, by rw [accepted.sla_eq]; rfl, checked⟩

/-- The numbers of functions wrap after 2048 places, and the largest word has no address at all. On a
device with a service, the number modulo 2048 is read back if it is that of a function, and is refused
otherwise; so a request for a new agreement of a leaf, whatever comes of it, leaves the rings of other
functions than this one alone, and gives the leaf to this one if it succeeds. -/
theorem function_numbers_wrap {config : DeviceConfig} (valid : config.validate = .ok ())
    (enabled : config.services ≠ []) :
    (∀ vf < Word.size 32,
      (vf = Word.max32 → ofVf vf = .error .addOverflow) ∧
      (vf ≠ Word.max32 → ∃ address, ofVf vf = .ok address ∧
        (vf % places < config.totalVfs → address.checkedVf config.totalVfs = .ok (vf % places)) ∧
        (config.totalVfs ≤ vf % places →
          ∃ reason, address.checkedVf config.totalVfs = .error (.invalidArgument reason)))) ∧
    ∀ (δ : Type) [LinkedDevice δ] (profile : Profile) (initial : δ → Prop) (moves : δ → δ → Prop)
      (limiter : Limiter δ), Reachable profile config initial moves limiter →
      ∀ request vf, request.kind = .leaf → ofVf vf = .ok request.owner →
        (intact (createSla request limiter).2.device →
          SparesRings config (vf % places) limiter.device (createSla request limiter).2.device) ∧
        ∀ id, (createSla request limiter).1 = .ok id →
          ∃ sla rings, (createSla request limiter).2.tree.Owns id sla rings ∧
            sla.owner.checkedVf config.totalVfs = .ok (vf % places) := by
  have few : config.totalVfs ≤ NodeKind.leaf.capacity := by
    have leaves := (DeviceConfig.bounds_of_validate valid).2.1
    exact (Nat.le_mul_of_pos_right _ (List.length_pos_iff.2 enabled)).trans leaves
  constructor
  · intro vf word
    constructor
    · rintro rfl
      exact PciAddress.ofVf_max32
    · intro other
      have fits : vf + 1 < Word.size 32 := by
        have largest : Word.max32 + 1 = Word.size 32 := by decide
        omega
      have placed := PciAddress.ofVf_of_lt fits
      refine ⟨_, placed, ?_, ?_⟩
      · intro below
        exact (PciAddress.checkedVf_eq_ok_of_ofVf few placed).2 ⟨rfl, below⟩
      · intro beyond
        rcases PciAddress.checkedVf_cases _ config.totalVfs with ⟨number, checked⟩ | refused
        · rcases (PciAddress.checkedVf_eq_ok_of_ofVf few placed).1 checked with ⟨rfl, below⟩
          omega
        · exact refused
  · intro δ _ profile initial moves limiter reached request vf level placed
    have sound := reached.wellFormed
    have config_eq := reached.constants.2
    constructor
    · intro still
      rw [← config_eq]
      exact createSla_sparesRings sound level placed still
    · intro id done
      rcases createSla_owns sound level done with ⟨sla, rings, number, owns, owner_eq, checked⟩
      rw [config_eq] at checked
      refine ⟨sla, rings, owns, ?_⟩
      rw [owner_eq, checked, ((PciAddress.checkedVf_eq_ok_of_ofVf few placed).1 checked).1]

/-- On a device with one function, a request on behalf of number 2048 gives the first leaf to function
zero. -/
theorem function_numbers_wrap_on_bench :
    smallConfig.validate = .ok () ∧ smallConfig.services ≠ [] ∧ ofVf 2048 = .ok firstLeaf.owner ∧
      ∃ limiter : Limiter Bench, Reachable Profile.gen4 smallConfig Bench.Direct Injects limiter ∧
        (createSla firstLeaf limiter).1 = .ok firstLeaf.node ∧
        intact (createSla firstLeaf limiter).2.device ∧
        SparesRings smallConfig 0 limiter.device (createSla firstLeaf limiter).2.device ∧
        ∃ sla rings, (createSla firstLeaf limiter).2.tree.Owns firstLeaf.node sla rings ∧
          sla.owner.checkedVf smallConfig.totalVfs = .ok 0 := by
  have valid : smallConfig.validate = .ok () := by decide +kernel
  have enabled : smallConfig.services ≠ [] := by decide
  have placed : ofVf 2048 = .ok firstLeaf.owner := by decide +kernel
  have passed : comesUp (fun limiter =>
      decide ((createSla firstLeaf limiter).1 = .ok firstLeaf.node) &&
        decide ((createSla firstLeaf limiter).2.device.pool.nextAddress < 2 ^ 64)) = true := by
    decide +kernel
  rcases exists_start passed with ⟨tree, bench, up, result⟩
  simp only [Bool.and_eq_true, decide_eq_true_eq] at result
  rcases result with ⟨done, still⟩
  have reached : Reachable Profile.gen4 smallConfig Bench.Direct Injects ⟨tree, bench⟩ :=
    .started ⟨rfl, rfl, rfl⟩ up
  rcases (function_numbers_wrap valid enabled).2 Bench _ _ _ _ reached firstLeaf 2048 rfl placed with
    ⟨spared, owned⟩
  exact ⟨valid, enabled, placed, _, reached, done, still, spared still, owned _ done⟩

/-- A number beyond every function of the device is read back as that of a function, and the largest word
is not read back at all. -/
theorem function_numbers_alias :
    DeviceConfig.gen4.validate = .ok () ∧ DeviceConfig.gen4.services ≠ [] ∧
      DeviceConfig.gen4.totalVfs ≤ 2048 ∧ ofVf 2048 = .ok ⟨0, 1⟩ ∧
      PciAddress.checkedVf ⟨0, 1⟩ DeviceConfig.gen4.totalVfs = .ok 0 ∧
      ofVf Word.max32 = .error .addOverflow := by
  decide +kernel

end Limiter

end RateTree
