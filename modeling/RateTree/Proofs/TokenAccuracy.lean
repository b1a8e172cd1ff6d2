import RateTree.Proofs.Translation
import Mathlib.Algebra.Order.Floor.Semifield
import Mathlib.Data.Nat.Cast.Order.Field
import Mathlib.Data.Rat.Floor
import Mathlib.Tactic.FieldSimp
import Mathlib.Tactic.Positivity

/-!
# Accuracy of tokens

A rate has an exact share in each dimension, which is a rational number. The tokens of a rate are worked
out with a quotient that is rounded toward zero at each step, and never exceed this share. For the two
services whose rates are measured in megabits, the quotients of the bus only divide what was divided
before, so that the tokens are the share rounded once; in the slices and in the engines a quotient is
multiplied by the rate before it is divided by the ceiling of the service, which loses less than one
more token, for the rate is at most the ceiling.
-/

namespace RateTree

/-- A bound on the tokens that rounding loses in a dimension. -/
def Dimension.slack : Dimension → Nat
  | .pcie _ => 1
  | .slice | .engine => 2

theorem Word.saturate_of_lt {width value : Nat} (fits : value < size width) :
    saturate width value = value := by
  rw [saturate]
  omega

namespace Profile

variable {profile : Profile} {service : Service} {rate : Nat}

/-- How many times decompression puts out what it takes in. -/
def growth (profile : Profile) (service : Service) (direction : Direction) : Nat :=
  match service, direction with
  | .dc, .output => profile.slices.dc.toNat - profile.dcCorrection.toNat
  | .dc, .input | .sym, _ | .asym, _ => 1

/-- The bytes a second that a rate moves, without rounding. -/
def bytesShare (profile : Profile) (service : Service) (direction : Direction) (rate : Nat) : ℚ :=
  match service with
  | .asym => rate * profile.maxThroughput.asym.toNat / profile.sliceReference.toNat *
      bytesPerAsymRequest
  | .sym | .dc => rate * bytesPerMegabit * profile.growth service direction

/-- The cycles that a rate takes up of a number of units in a scan, without rounding. -/
def cyclesShare (profile : Profile) (service : Service) (units : UInt32) (rate : Nat) : ℚ :=
  profile.clockFrequency.toNat * units.toNat * rate /
    (profile.scanInterval.toNat * profile.serviceMax service)

/-- The tokens of a rate, without rounding. -/
def share (profile : Profile) (service : Service) (dimension : Dimension) (rate : Nat) : ℚ :=
  match dimension with
  | .pcie direction => profile.bytesShare service direction rate * profile.pcieMultiplier.toNat /
      (profile.pcieDivisor.toNat * bytesPerToken * profile.scanInterval.toNat)
  | .slice => profile.cyclesShare service (profile.slices.get service) rate
  | .engine => profile.cyclesShare service (profile.engines.get service) rate

/-- Whether no step from a rate to its tokens overflows its word or is cut off at it. -/
structure Exact (profile : Profile) (service : Service) (dimension : Dimension) (rate : Nat) :
    Prop where
  fits : profile.product service dimension rate < Word.size 64
  scaled : ∀ direction, dimension = .pcie direction →
    profile.bytesWorth service direction rate * profile.pcieMultiplier.toNat < Word.size 64
  whole : profile.worth service dimension rate < Word.size 32

theorem Exact.clippedWorth_eq {dimension : Dimension}
    (exactly : profile.Exact service dimension rate) :
    profile.clippedWorth service dimension rate = profile.worth service dimension rate := by
  cases dimension with
  | pcie direction =>
      rw [clippedWorth, Word.saturate_of_lt (exactly.scaled direction rfl)]
      exact Word.saturate_of_lt exactly.whole
  | slice | engine => exact Word.saturate_of_lt exactly.whole

theorem requestsWorth_le (profile : Profile) (rate : Nat) :
    (profile.requestsWorth rate : ℚ) ≤
      rate * profile.maxThroughput.asym.toNat / profile.sliceReference.toNat := by
  rw [← Nat.cast_mul]
  exact Nat.cast_div_le

/-! ## The bus -/

/-- One quotient instead of three. -/
theorem scanWorth_eq (amount : Nat) :
    profile.scanWorth amount =
      amount / (profile.pcieDivisor.toNat * bytesPerToken * profile.scanInterval.toNat) := by
  rw [scanWorth, Nat.div_div_eq_div_mul, Nat.div_div_eq_div_mul, Nat.mul_assoc]

theorem scanWorth_eq_floor (amount : Nat) :
    profile.scanWorth amount =
      ⌊(amount / (profile.pcieDivisor.toNat * bytesPerToken * profile.scanInterval.toNat) : ℚ)⌋₊ := by
  have single := Nat.floor_div_eq_div (K := ℚ) amount
    (profile.pcieDivisor.toNat * bytesPerToken * profile.scanInterval.toNat)
  push_cast at single
  rw [scanWorth_eq, ← single]

theorem bytesWorth_of_ne_asym (measured : service ≠ .asym) (direction : Direction) :
    (profile.bytesWorth service direction rate : ℚ) = profile.bytesShare service direction rate := by
  cases service with
  | asym => exact absurd rfl measured
  | sym => simp [bytesWorth, bytesShare, growth]
  | dc => cases direction <;> simp [bytesWorth, bytesShare, growth]

theorem bytesWorth_le_share (direction : Direction) :
    (profile.bytesWorth service direction rate : ℚ) ≤ profile.bytesShare service direction rate := by
  by_cases measured : service = .asym
  · subst measured
    have requests := profile.requestsWorth_le rate
    simp only [bytesWorth, bytesShare, Nat.cast_mul]
    gcongr
  · exact (bytesWorth_of_ne_asym measured direction).le

theorem worth_pcie_eq_floor (measured : service ≠ .asym) (direction : Direction) :
    profile.worth service (.pcie direction) rate =
      ⌊profile.share service (.pcie direction) rate⌋₊ := by
  rw [worth, scanWorth_eq_floor, share, Nat.cast_mul, bytesWorth_of_ne_asym measured]

theorem worth_pcie_le_share (direction : Direction) :
    (profile.worth service (.pcie direction) rate : ℚ) ≤
      profile.share service (.pcie direction) rate := by
  have moved : (profile.bytesWorth service direction rate : ℚ) ≤
      profile.bytesShare service direction rate := bytesWorth_le_share direction
  calc (profile.worth service (.pcie direction) rate : ℚ)
      ≤ (profile.bytesWorth service direction rate * profile.pcieMultiplier.toNat : ℕ) /
          (profile.pcieDivisor.toNat * bytesPerToken * profile.scanInterval.toNat) := by
        rw [worth, scanWorth_eq_floor]
        exact Nat.floor_le (by positivity)
    _ ≤ profile.share service (.pcie direction) rate := by
        rw [share, Nat.cast_mul]
        gcongr

/-! ## Slices and engines -/

theorem cyclesWorth_le (units : UInt32) :
    (profile.cyclesWorth units : ℚ) ≤
      profile.clockFrequency.toNat * units.toNat / profile.scanInterval.toNat := by
  rw [← Nat.cast_mul]
  exact Nat.cast_div_le

theorem lt_cyclesWorth_add_one (units : UInt32) :
    (profile.clockFrequency.toNat * units.toNat / profile.scanInterval.toNat : ℚ) <
      profile.cyclesWorth units + 1 := by
  have single := Nat.lt_floor_add_one
    (profile.clockFrequency.toNat * units.toNat / profile.scanInterval.toNat : ℚ)
  rw [← Nat.cast_mul] at single ⊢
  rwa [Nat.floor_div_eq_div] at single

theorem cyclesShare_eq (units : UInt32) :
    profile.cyclesShare service units rate =
      rate * (profile.clockFrequency.toNat * units.toNat / profile.scanInterval.toNat) /
        profile.serviceMax service := by
  rw [cyclesShare]
  ring

/-- Cycles that are rounded before they are shared out. -/
theorem rounded_le_cyclesShare (units : UInt32) :
    ((rate * profile.cyclesWorth units / profile.serviceMax service : ℕ) : ℚ) ≤
      profile.cyclesShare service units rate := by
  have available := profile.cyclesWorth_le units
  calc ((rate * profile.cyclesWorth units / profile.serviceMax service : ℕ) : ℚ)
      ≤ (rate * profile.cyclesWorth units : ℕ) / profile.serviceMax service := Nat.cast_div_le
    _ ≤ profile.cyclesShare service units rate := by
        rw [cyclesShare_eq, Nat.cast_mul]
        gcongr

/-- The first rounding loses a part of a cycle, which a rate up to the ceiling does not multiply; the
second loses a part of a token. -/
theorem cyclesShare_lt (below : rate ≤ profile.serviceMax service)
    (ceiling : 0 < profile.serviceMax service) (units : UInt32) :
    profile.cyclesShare service units rate <
      (rate * profile.cyclesWorth units / profile.serviceMax service : ℕ) + 2 := by
  have available := (profile.lt_cyclesWorth_add_one units).le
  have part : (rate : ℚ) / profile.serviceMax service ≤ 1 :=
    (div_le_one (by exact_mod_cast ceiling)).2 (by exact_mod_cast below)
  have rounded := Nat.lt_floor_add_one
    ((rate * profile.cyclesWorth units : ℕ) / profile.serviceMax service : ℚ)
  rw [Nat.floor_div_eq_div, Nat.cast_mul] at rounded
  calc profile.cyclesShare service units rate
      ≤ rate * (profile.cyclesWorth units + 1) / profile.serviceMax service := by
        rw [cyclesShare_eq]
        gcongr
    _ = rate * profile.cyclesWorth units / profile.serviceMax service +
          rate / profile.serviceMax service := by ring
    _ < (rate * profile.cyclesWorth units / profile.serviceMax service : ℕ) + 1 + 1 :=
        add_lt_add_of_lt_of_le rounded part
    _ = (rate * profile.cyclesWorth units / profile.serviceMax service : ℕ) + 2 := by ring

theorem worth_engine_of_ne_asym (measured : service ≠ .asym) :
    profile.worth service .engine rate =
      rate * profile.cyclesWorth (profile.engines.get service) / profile.serviceMax service := by
  cases service with
  | asym => exact absurd rfl measured
  | sym | dc => rfl

theorem Usable.worth_engine_le_share (usable : profile.Usable) :
    (profile.worth service .engine rate : ℚ) ≤ profile.share service .engine rate := by
  by_cases measured : service = .asym
  · subst measured
    have throughput : (0 : ℚ) < profile.maxThroughput.asym.toNat := by
      exact_mod_cast usable.maxThroughput .asym
    have requests := profile.requestsWorth_le rate
    have available := profile.cyclesWorth_le (profile.engines.get .asym)
    calc (profile.worth .asym .engine rate : ℚ)
        ≤ (profile.requestsWorth rate * profile.cyclesWorth (profile.engines.get .asym) : ℕ) /
            profile.maxThroughput.asym.toNat := Nat.cast_div_le
      _ ≤ rate * profile.maxThroughput.asym.toNat / profile.sliceReference.toNat *
            (profile.clockFrequency.toNat * (profile.engines.get .asym).toNat /
              profile.scanInterval.toNat) / profile.maxThroughput.asym.toNat := by
          rw [Nat.cast_mul]
          gcongr
      _ = profile.share .asym .engine rate := by
          rw [share, cyclesShare_eq, serviceMax]
          field_simp
  · rw [worth_engine_of_ne_asym measured]
    exact rounded_le_cyclesShare _

/-! ## Tokens -/

theorem Usable.worth_le_share (usable : profile.Usable) (dimension : Dimension) :
    (profile.worth service dimension rate : ℚ) ≤ profile.share service dimension rate := by
  cases dimension with
  | pcie direction => exact worth_pcie_le_share direction
  | slice => exact rounded_le_cyclesShare _
  | engine => exact usable.worth_engine_le_share

/-- The tokens of a rate never exceed its share. If the rate is measured in megabits, they are the share
rounded once on the bus, and less than two below the share in the slices and in the engines. -/
theorem tokensFor_accurate (valid : profile.validate = .ok ())
    (below : rate ≤ profile.serviceMax service) {dimension : Dimension}
    (exactly : profile.Exact service dimension rate) :
    ∃ tokens, profile.tokensFor service dimension rate = .ok tokens ∧
      (tokens.toNat : ℚ) ≤ profile.share service dimension rate ∧
      (service ≠ .asym →
        profile.share service dimension rate < tokens.toNat + dimension.slack ∧
        ∀ direction, dimension = .pcie direction →
          tokens.toNat = ⌊profile.share service dimension rate⌋₊) := by
  have usable := usable_of_validate valid
  rcases (exists_tokensFor_iff usable below dimension).2 exactly.fits with ⟨tokens, computed⟩
  have counted := tokensFor_eq_ok computed
  rw [exactly.clippedWorth_eq] at counted
  have within : (profile.worth service dimension rate : ℚ) ≤ profile.share service dimension rate :=
    usable.worth_le_share dimension
  refine ⟨tokens, computed, counted ▸ within, ?_⟩
  intro measured
  have ceiling := usable.serviceMax_pos service
  cases dimension with
  | pcie direction =>
      rw [worth_pcie_eq_floor measured] at counted
      refine ⟨?_, fun _ _ => counted⟩
      rw [counted]
      exact (Nat.lt_floor_add_one _).trans_eq (by simp [Dimension.slack])
  | slice =>
      rw [counted]
      exact ⟨cyclesShare_lt below ceiling _, fun _ => nofun⟩
  | engine =>
      rw [counted, worth_engine_of_ne_asym measured]
      exact ⟨cyclesShare_lt below ceiling _, fun _ => nofun⟩

theorem tokensFor_accurate_gen4 :
    gen4.validate = .ok () ∧ 1000 ≤ gen4.serviceMax .dc ∧ gen4.Exact .dc (.pcie .output) 1000 ∧
      gen4.tokensFor .dc (.pcie .output) 1000 = .ok 6264 ∧
      6264 = ⌊gen4.share .dc (.pcie .output) 1000⌋₊ ∧
      gen4.share .dc (.pcie .output) 1000 < 6264 + 1 := by
  have valid : gen4.validate = .ok () := by decide +kernel
  have exactly : gen4.Exact .dc (.pcie .output) 1000 := by
    refine ⟨by decide, ?_, by decide⟩
    rintro _ ⟨⟩
    decide
  rcases tokensFor_accurate valid (by decide) exactly with ⟨tokens, computed, -, measured⟩
  have known : gen4.tokensFor .dc (.pcie .output) 1000 = .ok 6264 := by decide +kernel
  rw [known] at computed
  cases computed
  rcases measured (by decide) with ⟨short, rounded⟩
  have count : UInt32.toNat 6264 = 6264 := by decide
  rw [count] at rounded short
  refine ⟨valid, by decide, exactly, known, rounded .output rfl, short.trans_eq ?_⟩
  simp [Dimension.slack]

end Profile

end RateTree
