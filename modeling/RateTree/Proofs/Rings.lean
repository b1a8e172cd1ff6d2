import RateTree.Proofs.WellFormed

/-!
# Ring numbers

The rings of a function are numbered after those of the functions before it. On a device with a valid
configuration and a service to limit, every ring number is below 256.
-/

namespace RateTree

namespace Outcome

variable {ε α β : Type}

/-- What a mapped computation returns, it computed of one of the elements. -/
theorem exists_of_mapM_eq_ok {compute : α → Except ε β} {items : List α} {results : List β}
    (mapped : items.mapM compute = .ok results) {result : β} (mem : result ∈ results) :
    ∃ item ∈ items, compute item = .ok result := by
  induction items generalizing results with
  | nil =>
      simp only [List.mapM_nil, pure_eq_ok] at mapped
      simp [← mapped] at mem
  | cons item rest ih =>
      simp only [List.mapM_cons, bind_eq_ok, pure_eq_ok] at mapped
      rcases mapped with ⟨first, computed, others, rest_mapped, rfl⟩
      rcases List.mem_cons.1 mem with rfl | later
      · exact ⟨item, by simp, computed⟩
      · rcases ih rest_mapped later with ⟨other, other_mem, other_computed⟩
        exact ⟨other, by simp [other_mem], other_computed⟩

/-- What is computed of an element is among the results. -/
theorem mem_of_mapM_eq_ok {compute : α → Except ε β} {items : List α} {results : List β}
    (mapped : items.mapM compute = .ok results) {item : α} (mem : item ∈ items) {result : β}
    (computed : compute item = .ok result) : result ∈ results := by
  induction items generalizing results with
  | nil => contradiction
  | cons head rest ih =>
      simp only [List.mapM_cons, bind_eq_ok, pure_eq_ok] at mapped
      rcases mapped with ⟨first, first_computed, others, rest_mapped, rfl⟩
      rcases List.mem_cons.1 mem with rfl | later
      · rw [first_computed, Except.ok.injEq] at computed
        simp [computed]
      · simp [ih rest_mapped later]

theorem length_of_mapM_eq_ok {compute : α → Except ε β} {items : List α} {results : List β}
    (mapped : items.mapM compute = .ok results) : results.length = items.length := by
  induction items generalizing results with
  | nil =>
      simp only [List.mapM_nil, pure_eq_ok] at mapped
      simp [← mapped]
  | cons item rest ih =>
      simp only [List.mapM_cons, bind_eq_ok, pure_eq_ok] at mapped
      rcases mapped with ⟨first, -, others, rest_mapped, rfl⟩
      simp [ih rest_mapped]

/-- What can be computed of every element can be computed of all. -/
theorem exists_mapM {compute : α → Except ε β} {items : List α}
    (each : ∀ item ∈ items, ∃ result, compute item = .ok result) :
    ∃ results, items.mapM compute = .ok results := by
  induction items with
  | nil => exact ⟨[], by simp⟩
  | cons item rest ih =>
      rcases each item (by simp) with ⟨first, computed⟩
      rcases ih fun other mem => each other (by simp [mem]) with ⟨others, rest_mapped⟩
      exact ⟨first :: others, by simp [bind_eq_ok, computed, rest_mapped]⟩

end Outcome

theorem Word.add_eq_ok {width left right value : Nat} (computed : add width left right = .ok value) :
    value = left + right :=
  (fits_eq_ok.1 computed).2.symm

theorem Word.mul_eq_ok {width left right value : Nat} (computed : mul width left right = .ok value) :
    value = left * right :=
  (fits_eq_ok.1 computed).2.symm

theorem ringNumber_eq_ok {vf bank banksPerVf ring : Nat}
    (computed : ringNumber vf bank banksPerVf = .ok ring) : ring = vf * banksPerVf + bank := by
  simp only [ringNumber, Outcome.bind_eq_ok] at computed
  rcases computed with ⟨first, product, sum⟩
  rw [Word.add_eq_ok sum, Word.mul_eq_ok product]

theorem PciAddress.lt_of_checkedVf {address : PciAddress} {totalVfs vf : Nat}
    (checked : address.checkedVf totalVfs = .ok vf) : vf < totalVfs := by
  simp only [checkedVf] at checked
  split at checked
  · contradiction
  · split at checked
    · split at checked
      · next below =>
        cases checked
        exact below
      · contradiction
    · contradiction

theorem PciAddress.vfNumber?_of_checkedVf {address : PciAddress} {totalVfs vf : Nat}
    (checked : address.checkedVf totalVfs = .ok vf) : address.vfNumber? = some vf := by
  simp only [checkedVf] at checked
  split at checked
  · contradiction
  · split at checked
    · next number known =>
      split at checked
      · cases checked
        exact known
      · contradiction
    · contradiction

theorem exists_ringNumber {vf bank banksPerVf : Nat} (small : vf * banksPerVf + bank < 2 ^ 32) :
    ∃ ring, ringNumber vf bank banksPerVf = .ok ring := by
  have product : vf * banksPerVf < Word.size 32 := Nat.lt_of_le_of_lt (Nat.le_add_right _ _) small
  refine ⟨vf * banksPerVf + bank, Outcome.bind_eq_ok.2 ⟨vf * banksPerVf, if_pos product, ?_⟩⟩
  exact if_pos small

namespace DeviceConfig

variable {config : DeviceConfig}

/-- What validation bounds. -/
theorem bounds_of_validate (valid : config.validate = .ok ()) :
    config.banksPerVf ≤ RingMap.banks ∧
      config.totalVfs * config.services.length ≤ NodeKind.leaf.capacity ∧
      config.enabledVfs ≤ config.totalVfs := by
  simp only [validate] at valid
  split at valid
  · contradiction
  · split at valid
    · contradiction
    · split at valid
      · contradiction
      · next banks =>
        split at valid
        · contradiction
        · next enabled =>
          split at valid
          · contradiction
          · next leaves =>
            refine ⟨by omega, ?_, Nat.not_lt.1 enabled⟩
            simp only [leafDemand, Word.saturate, Word.size, NodeKind.capacity] at leaves ⊢
            omega

/-- A function has at most one ring a bank. -/
theorem length_le_of_ringsFor {address : PciAddress} {carried : Service} {rings : List Nat}
    (known : config.ringsFor address carried = .ok rings) : rings.length ≤ RingMap.banks := by
  simp only [ringsFor, Outcome.bind_eq_ok, Outcome.liftError_eq_ok, Outcome.liftFault_eq_ok] at known
  rcases known with ⟨vf, -, mapped⟩
  calc rings.length
      = (config.banksFor carried).length := Outcome.length_of_mapM_eq_ok mapped
    _ ≤ (List.range (min config.banksPerVf RingMap.banks)).length := List.length_filter_le _ _
    _ ≤ RingMap.banks := by simp

theorem mem_banksFor (valid : config.validate = .ok ()) {bank : Nat} {carried : Service} :
    bank ∈ config.banksFor carried ↔
      bank < config.banksPerVf ∧ (config.bankUse bank).carries carried = true := by
  have banks := (bounds_of_validate valid).1
  simp only [banksFor, List.mem_filter, List.mem_range, Nat.min_eq_left banks]

/-- The banks of all functions together are few. -/
theorem ring_lt (valid : config.validate = .ok ()) {service : Service}
    (enabled : service ∈ config.services) {vf bank : Nat} (below : vf < config.totalVfs)
    (bank_lt : bank < config.banksPerVf) : vf * config.banksPerVf + bank < 256 := by
  rcases bounds_of_validate valid with ⟨banks, leaves, -⟩
  have some_service : 1 ≤ config.services.length := List.length_pos_of_mem enabled
  have few : config.totalVfs ≤ 64 := by
    calc config.totalVfs
        ≤ config.totalVfs * config.services.length := Nat.le_mul_of_pos_right _ some_service
      _ ≤ 64 := leaves
  have four : config.banksPerVf ≤ 4 := banks
  calc vf * config.banksPerVf + bank
      < (vf + 1) * config.banksPerVf := by rw [Nat.add_one_mul]; omega
    _ ≤ 64 * 4 := Nat.mul_le_mul (by omega) four

theorem bank_lt (valid : config.validate = .ok ()) {service : Service}
    (enabled : service ∈ config.services) {vf bank : Nat} (below : vf < config.totalVfs)
    {carried : Service} (mem : bank ∈ config.banksFor carried) :
    vf * config.banksPerVf + bank < 256 :=
  ring_lt valid enabled below ((mem_banksFor valid).1 mem).1

/-- A ring of a function belongs to a bank of one. -/
theorem exists_bank_of_mem {address : PciAddress} {carried : Service} {rings : List Nat}
    (known : config.ringsFor address carried = .ok rings) {ring : Nat} (mem : ring ∈ rings) :
    ∃ vf bank, vf < config.totalVfs ∧ bank ∈ config.banksFor carried ∧
      ring = vf * config.banksPerVf + bank := by
  simp only [ringsFor, Outcome.bind_eq_ok, Outcome.liftError_eq_ok, Outcome.liftFault_eq_ok] at known
  rcases known with ⟨vf, checked, mapped⟩
  rcases Outcome.exists_of_mapM_eq_ok mapped mem with ⟨bank, bank_mem, numbered⟩
  exact ⟨vf, bank, PciAddress.lt_of_checkedVf checked, bank_mem, ringNumber_eq_ok numbered⟩

/-- Every ring of a function has a small number. -/
theorem ring_lt_of_ringsFor (valid : config.validate = .ok ()) {service : Service}
    (enabled : service ∈ config.services) {address : PciAddress} {carried : Service}
    {rings : List Nat} (known : config.ringsFor address carried = .ok rings) {ring : Nat}
    (mem : ring ∈ rings) : ring < 256 := by
  rcases exists_bank_of_mem known mem with ⟨vf, bank, below, bank_mem, rfl⟩
  exact bank_lt valid enabled below bank_mem

/-- The rings of all functions are as many as their banks. -/
theorem ring_lt_banks (valid : config.validate = .ok ()) {address : PciAddress} {carried : Service}
    {rings : List Nat} (known : config.ringsFor address carried = .ok rings) {ring : Nat}
    (mem : ring ∈ rings) : ring < config.totalVfs * config.banksPerVf := by
  rcases exists_bank_of_mem known mem with ⟨vf, bank, below, bank_mem, rfl⟩
  have inside := ((mem_banksFor valid).1 bank_mem).1
  calc vf * config.banksPerVf + bank
      < vf * config.banksPerVf + config.banksPerVf := Nat.add_lt_add_left inside _
    _ = (vf + 1) * config.banksPerVf := (Nat.succ_mul _ _).symm
    _ ≤ config.totalVfs * config.banksPerVf := Nat.mul_le_mul_right _ below

/-- A ring is one of a function's for a service if it belongs to the function and its bank carries the
service. -/
theorem mem_ringsFor (valid : config.validate = .ok ()) {address : PciAddress}
    {carried : Service} {rings : List Nat} (known : config.ringsFor address carried = .ok rings)
    {vf bank : Nat} (bank_lt : bank < config.banksPerVf)
    (small : vf * config.banksPerVf + bank < 2 ^ 32) :
    vf * config.banksPerVf + bank ∈ rings ↔
      address.vfNumber? = some vf ∧ (config.bankUse bank).carries carried = true := by
  simp only [ringsFor, Outcome.bind_eq_ok, Outcome.liftError_eq_ok, Outcome.liftFault_eq_ok] at known
  rcases known with ⟨function, checked, mapped⟩
  have number := PciAddress.vfNumber?_of_checkedVf checked
  constructor
  · intro mem
    rcases Outcome.exists_of_mapM_eq_ok mapped mem with ⟨place, place_mem, numbered⟩
    rcases (mem_banksFor valid).1 place_mem with ⟨place_lt, carries⟩
    -- A ring has one quotient and one remainder by the number of banks.
    have ring_eq := ringNumber_eq_ok numbered
    have place_eq : bank = place := by
      calc bank = (vf * config.banksPerVf + bank) % config.banksPerVf := by
            rw [Nat.mul_add_mod_of_lt bank_lt]
        _ = (function * config.banksPerVf + place) % config.banksPerVf := by rw [ring_eq]
        _ = place := Nat.mul_add_mod_of_lt place_lt
    subst place_eq
    have function_eq : function = vf :=
      Nat.eq_of_mul_eq_mul_right (Nat.zero_lt_of_lt bank_lt) (by omega)
    exact ⟨by rw [number, function_eq], carries⟩
  · rintro ⟨own, carries⟩
    rw [number, Option.some.injEq] at own
    subst own
    rcases exists_ringNumber small with ⟨ring, numbered⟩
    rw [← ringNumber_eq_ok numbered]
    exact Outcome.mem_of_mapM_eq_ok mapped ((mem_banksFor valid).2 ⟨bank_lt, carries⟩) numbered

/-- Every function of the device has rings. -/
theorem exists_ringsFor (valid : config.validate = .ok ()) {service : Service}
    (enabled : service ∈ config.services) {address : PciAddress} {vf : Nat}
    (checked : address.checkedVf config.totalVfs = .ok vf) (carried : Service) :
    ∃ rings, config.ringsFor address carried = .ok rings := by
  have below := PciAddress.lt_of_checkedVf checked
  have numbered : ∃ rings, (config.banksFor carried).mapM
      (fun bank => ringNumber vf bank config.banksPerVf) = .ok rings := by
    apply Outcome.exists_mapM
    intro bank mem
    exact exists_ringNumber (Nat.lt_trans (bank_lt valid enabled below mem) (by decide))
  rcases numbered with ⟨rings, mapped⟩
  refine ⟨rings, ?_⟩
  simp only [ringsFor, Outcome.bind_eq_ok, Outcome.liftError_eq_ok, Outcome.liftFault_eq_ok]
  exact ⟨vf, checked, mapped⟩

end DeviceConfig

end RateTree
