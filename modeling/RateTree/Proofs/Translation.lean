import RateTree.Proofs.PlanFaults

/-!
# Translation of rates

No constant of a device that passed its checks is zero where a rate is divided by it, and the
constants and the rates are words of 32 bits, so that most products of two of them stay within the 64
bits that the tokens are worked out in. The products of three of them may not: the bytes that
decompression puts out, and the shares of a rate in the cycles of the slices and of the engines. The
tokens of two rates up to the ceiling of a service are worked out exactly if these products of the
higher rate fit; if one does not, the translation faults, for the checks do not bound them.

A committed rate is refused if it is worth no token on the way in, in the slices or in the engines.
Tokens only grow with the rate, and the way out gets no fewer than the way in, unless the device has no
slice that counts for the output of decompression.
-/

namespace RateTree

open Outcome (Avoids)

namespace Outcome

variable {ε α β : Type}

theorem ok_bind (value : α) (next : α → Except ε β) :
    (Except.ok value >>= next) = next value := rfl

end Outcome

namespace Word

/-- A product as a word, if it fits. -/
def fitted (width product : Nat) : Except Fault Nat :=
  if product < size width then .ok product else .error .multiplyOverflow

theorem mul_eq_fitted (width left right : Nat) :
    mul width left right = fitted width (left * right) := rfl

theorem fitted_of_lt {width product : Nat} (fits : product < size width) :
    fitted width product = .ok product := if_pos fits

theorem fitted_bind {α : Type} (width product : Nat) (next : Nat → Except Fault α) :
    (fitted width product >>= next) =
      if product < size width then next product else .error .multiplyOverflow := by
  rw [fitted]
  split <;> rfl

theorem div_of_pos {divisor : Nat} (positive : 0 < divisor) (dividend : Nat) :
    div dividend divisor = .ok (dividend / divisor) := if_neg positive.ne'

theorem toNat_lt_size (word : UInt32) : word.toNat < size 32 :=
  word.toNat_lt.trans_eq (by decide)

theorem mul_lt_size {left right : Nat} (left_lt : left < size 32) (right_lt : right < size 32) :
    left * right < size 64 :=
  (Nat.mul_lt_mul'' left_lt right_lt).trans_eq (by decide)

theorem saturate_mono {width value larger : Nat} (below : value ≤ larger) :
    saturate width value ≤ saturate width larger := by
  simp only [saturate]
  omega

end Word

namespace Profile

variable {profile : Profile} {service : Service} {rate : Nat}

/-- What the checks of a profile establish. -/
structure Usable (profile : Profile) : Prop where
  scanInterval : 0 < profile.scanInterval.toNat
  pcieDivisor : 0 < profile.pcieDivisor.toNat
  pcieMultiplier : 0 < profile.pcieMultiplier.toNat
  sliceReference : 0 < profile.sliceReference.toNat
  clockFrequency : 0 < profile.clockFrequency.toNat
  maxThroughput : ∀ service, 0 < (profile.maxThroughput.get service).toNat
  dcCorrection : profile.dcCorrection.toNat ≤ profile.slices.dc.toNat

theorem pos_of_ne_zero {word : UInt32} (nonzero : word ≠ 0) : 0 < word.toNat := by
  apply Nat.pos_of_ne_zero
  intro zero
  exact nonzero (UInt32.toNat.inj zero)

theorem usable_of_validate (valid : profile.validate = .ok ()) : profile.Usable := by
  simp only [validate] at valid
  split at valid
  · cases valid
  · next scanInterval =>
    split at valid
    · cases valid
    · next pcieScale =>
      split at valid
      · cases valid
      · next sliceReference =>
        split at valid
        · cases valid
        · next clockFrequency =>
          split at valid
          · cases valid
          · next throughputs =>
            split at valid
            · cases valid
            · next correction =>
              rw [not_or] at pcieScale
              refine ⟨pos_of_ne_zero scanInterval, pos_of_ne_zero pcieScale.1,
                pos_of_ne_zero pcieScale.2, pos_of_ne_zero sliceReference,
                pos_of_ne_zero clockFrequency, fun service => pos_of_ne_zero ?_, ?_⟩
              · have listed : service ∈ Service.all := by cases service <;> simp [Service.all]
                simpa using List.find?_eq_none.1 throughputs service listed
              · exact Nat.not_lt.1 correction

theorem serviceMax_lt_size (profile : Profile) (service : Service) :
    profile.serviceMax service < Word.size 32 :=
  (profile.serviceMax_lt service).trans_eq (by decide)

theorem Usable.serviceMax_pos (usable : profile.Usable) (service : Service) :
    0 < profile.serviceMax service := by
  cases service with
  | asym => exact usable.sliceReference
  | sym => exact usable.maxThroughput .sym
  | dc => exact usable.maxThroughput .dc

/-! ## Products that may not fit -/

/-- The product that the token function of a dimension forms last. -/
def product (profile : Profile) (service : Service) (dimension : Dimension) (rate : Nat) : Nat :=
  match dimension with
  | .pcie direction => profile.bytesWorth service direction rate
  | .slice => rate * profile.cyclesWorth (profile.slices.get service)
  | .engine => profile.throughputWorth service rate *
      profile.cyclesWorth (profile.engines.get service)

/-- Whether the products that are formed for a rate fit words of 64 bits. -/
def Fits (profile : Profile) (service : Service) (rate : Nat) : Prop :=
  ∀ dimension, profile.product service dimension rate < Word.size 64

theorem product_zero (dimension : Dimension) : profile.product service dimension 0 = 0 := by
  cases dimension with
  | pcie direction => exact bytesWorth_zero direction
  | slice => exact Nat.zero_mul _
  | engine => cases service <;> simp [product, throughputWorth, requestsWorth]

section

variable (usable : profile.Usable) (below : rate ≤ profile.serviceMax service)

include usable below

theorem bytesOf_eq (direction : Direction) :
    profile.bytesOf service direction rate =
      Word.fitted 64 (profile.bytesWorth service direction rate) := by
  have rate_lt := below.trans_lt (profile.serviceMax_lt_size service)
  cases service with
  | asym =>
      have scaled := Word.mul_lt_size rate_lt (Word.toNat_lt_size profile.maxThroughput.asym)
      simp only [bytesOf, bytesWorth, requestsWorth, Word.mul_eq_fitted, Word.fitted_of_lt scaled,
        Word.div_of_pos usable.sliceReference, Outcome.ok_bind]
  | sym => simp only [bytesOf, bytesWorth, Word.mul_eq_fitted]
  | dc =>
      cases direction with
      | input => simp only [bytesOf, bytesWorth, Word.mul_eq_fitted]
      | output =>
          have scaled : rate * bytesPerMegabit < Word.size 64 := Word.mul_lt_size rate_lt (by decide)
          rw [bytesOf, Word.mul_eq_fitted, Word.fitted_of_lt scaled, Outcome.ok_bind,
            Word.mul_eq_fitted, bytesWorth]

omit below in
theorem cyclesPerScan_eq (units : UInt32) :
    profile.cyclesPerScan units = .ok (profile.cyclesWorth units) := by
  have cycles := Word.mul_lt_size (Word.toNat_lt_size profile.clockFrequency)
    (Word.toNat_lt_size units)
  simp only [cyclesPerScan, Word.mul_eq_fitted, Word.fitted_of_lt cycles, Outcome.ok_bind,
    Word.div_of_pos usable.scanInterval]
  rfl

theorem throughputOf_eq :
    profile.throughputOf service rate = .ok (profile.throughputWorth service rate) := by
  have rate_lt := below.trans_lt (profile.serviceMax_lt_size service)
  cases service with
  | asym =>
      have scaled := Word.mul_lt_size rate_lt (Word.toNat_lt_size profile.maxThroughput.asym)
      simp only [throughputOf, Word.mul_eq_fitted, Word.fitted_of_lt scaled, Outcome.ok_bind,
        Word.div_of_pos usable.sliceReference]
      rfl
  | sym | dc => rfl

/-- The tokens of a rate are its clipped worth, if the last product fits. -/
theorem tokensFor_eq (dimension : Dimension) :
    profile.tokensFor service dimension rate =
      if profile.product service dimension rate < Word.size 64 then
        .ok (profile.clippedWorth service dimension rate).toUInt32
      else .error .multiplyOverflow := by
  by_cases none : rate = 0
  · subst none
    have computed : profile.tokensFor service dimension 0 = .ok 0 := by cases dimension <;> rfl
    rw [product_zero, if_pos (by decide), ← tokensFor_eq_ok computed]
    exact computed
  · cases dimension with
    | pcie direction =>
        simp only [tokensFor, pcieTokens, if_neg none, bytesOf_eq usable below, Word.fitted_bind,
          Word.div_of_pos usable.pcieDivisor, Word.div_of_pos usable.scanInterval, Outcome.ok_bind]
        rfl
    | slice =>
        simp only [tokensFor, sliceTokens, if_neg none, cyclesPerScan_eq usable, Outcome.ok_bind,
          Word.mul_eq_fitted, Word.fitted_bind, Word.div_of_pos (usable.serviceMax_pos service)]
        rw [Nat.mul_comm]
        rfl
    | engine =>
        simp only [tokensFor, engineTokens, if_neg none, cyclesPerScan_eq usable,
          throughputOf_eq usable below, Outcome.ok_bind, Word.mul_eq_fitted, Word.fitted_bind,
          Word.div_of_pos (usable.maxThroughput service)]
        rfl

theorem tokensFor_of_lt {dimension : Dimension}
    (fits : profile.product service dimension rate < Word.size 64) :
    profile.tokensFor service dimension rate =
      .ok (profile.clippedWorth service dimension rate).toUInt32 :=
  (tokensFor_eq usable below dimension).trans (if_pos fits)

theorem tokensFor_of_le {dimension : Dimension}
    (overflows : Word.size 64 ≤ profile.product service dimension rate) :
    profile.tokensFor service dimension rate = .error .multiplyOverflow :=
  (tokensFor_eq usable below dimension).trans (if_neg (Nat.not_lt.2 overflows))

theorem exists_tokensFor_iff (dimension : Dimension) :
    (∃ tokens, profile.tokensFor service dimension rate = .ok tokens) ↔
      profile.product service dimension rate < Word.size 64 := by
  constructor
  · rintro ⟨tokens, computed⟩
    by_contra overflows
    rw [tokensFor_of_le usable below (Nat.not_lt.1 overflows)] at computed
    cases computed
  · intro fits
    exact ⟨_, tokensFor_of_lt usable below fits⟩

end

theorem Usable.fits_of_le {largest : Nat} (usable : profile.Usable) (below : rate ≤ largest)
    (within : largest ≤ profile.serviceMax service) (fits : profile.Fits service largest) :
    profile.Fits service rate := by
  intro dimension
  rcases (exists_tokensFor_iff usable within dimension).2 (fits dimension) with ⟨most, computed⟩
  exact (exists_tokensFor_iff usable (below.trans within) dimension).1
    (exists_tokensFor below computed)

/-- A profile converts every rate if the products of the largest rates fit. -/
theorem Usable.converts_iff (usable : profile.Usable) :
    profile.Converts ↔ ∀ service, profile.Fits service (profile.serviceMax service) := by
  constructor
  · intro converts service dimension
    exact (exists_tokensFor_iff usable le_rfl dimension).1 (converts service dimension)
  · intro fits service dimension
    exact (exists_tokensFor_iff usable le_rfl dimension).2 (fits service dimension)

end Profile

namespace Tokens

variable {profile : Profile} {service : Service} {cir pir : Nat}

/-- A computation of tokens only fails as the tokens of one of the rates in a dimension do. -/
theorem compute_avoids {way : Fault → Prop}
    (each : ∀ dimension, Avoids way (profile.tokensFor service dimension cir) ∧
      Avoids way (profile.tokensFor service dimension pir)) :
    Avoids way (compute profile service cir pir) := by
  apply (each (.pcie .input)).1.bind
  intro _
  apply (each (.pcie .input)).2.bind
  intro _
  apply (each (.pcie .output)).1.bind
  intro _
  apply (each (.pcie .output)).2.bind
  intro _
  apply (each .slice).1.bind
  intro _
  apply (each .slice).2.bind
  intro _
  apply (each .engine).1.bind
  intro _
  apply (each .engine).2.bind
  intro _
  exact .ok _

theorem compute_fault (usable : profile.Usable) (cir_le : cir ≤ profile.serviceMax service)
    (pir_le : pir ≤ profile.serviceMax service) {cause : Fault}
    (failed : compute profile service cir pir = .error cause) : cause = .multiplyOverflow := by
  have each (dimension : Dimension) {rate : Nat} (below : rate ≤ profile.serviceMax service) :
      Avoids (· ≠ .multiplyOverflow) (profile.tokensFor service dimension rate) := by
    by_cases fits : profile.product service dimension rate < Word.size 64
    · rw [Profile.tokensFor_of_lt usable below fits]
      exact .ok _
    · rw [Profile.tokensFor_of_le usable below (Nat.not_lt.1 fits)]
      exact .error fun other => other rfl
  by_contra other
  exact compute_avoids (fun dimension => ⟨each dimension cir_le, each dimension pir_le⟩) cause failed
    other

theorem exists_compute_iff (usable : profile.Usable) (ordered : cir ≤ pir)
    (pir_le : pir ≤ profile.serviceMax service) :
    (∃ tokens, compute profile service cir pir = .ok tokens) ↔ profile.Fits service pir := by
  constructor
  · rintro ⟨tokens, computed⟩ dimension
    exact (Profile.exists_tokensFor_iff usable pir_le dimension).1
      ⟨_, (compute_eq_ok.1 computed dimension).2⟩
  · intro fits
    have lower := usable.fits_of_le ordered pir_le fits
    have cir_le := ordered.trans pir_le
    exact exists_compute fun dimension =>
      ⟨⟨_, Profile.tokensFor_of_lt usable cir_le (lower dimension)⟩,
        ⟨_, Profile.tokensFor_of_lt usable pir_le (fits dimension)⟩⟩

/-- Two rates up to the ceiling of their service are translated, or refused as too low, if the products
of the higher one fit; otherwise the translation faults. -/
theorem ofRates_ends_iff_fits (valid : profile.validate = .ok ()) (ordered : cir ≤ pir)
    (pir_le : pir ≤ profile.serviceMax service) :
    (profile.Fits service pir →
      (∃ tokens, ofRates profile service cir pir = .ok tokens) ∨
        ofRates profile service cir pir = .error (.error (.rateTooLow service))) ∧
    (¬profile.Fits service pir →
      ofRates profile service cir pir = .error (.fault .multiplyOverflow)) := by
  have usable := Profile.usable_of_validate valid
  rw [← exists_compute_iff usable ordered pir_le, ofRates]
  constructor
  · rintro ⟨tokens, computed⟩
    rw [computed]
    by_cases low : cir ≠ 0 ∧ (tokens.committed.pcieIn = 0 ∨ tokens.committed.slice = 0 ∨
        tokens.committed.engine = 0)
    · exact .inr (if_pos low)
    · exact .inl ⟨tokens, if_neg low⟩
  · intro uncomputed
    cases computed : compute profile service cir pir with
    | ok tokens => exact absurd ⟨tokens, computed⟩ uncomputed
    | error cause =>
        cases compute_fault usable (ordered.trans pir_le) pir_le computed
        rfl

theorem ofRates_ends_iff_fits_gen4 :
    Profile.gen4.validate = .ok () ∧ 1000 ≤ 2000 ∧ 2000 ≤ Profile.gen4.serviceMax .sym ∧
      Profile.gen4.Fits .sym 2000 ∧
      ((∃ tokens, ofRates .gen4 .sym 1000 2000 = .ok tokens) ∨
        ofRates .gen4 .sym 1000 2000 = .error (.error (.rateTooLow .sym))) := by
  have fits : Profile.gen4.Fits .sym 2000 := by
    rintro ((_ | _) | _ | _) <;> decide +kernel
  exact ⟨by decide +kernel, by decide, by decide, fits,
    (ofRates_ends_iff_fits (by decide +kernel) (by decide) (by decide)).1 fits⟩

/-- A profile of large constants that pass the checks. -/
def fastProfile : Profile :=
  { Profile.gen4 with
    scanInterval := 1
    clockFrequency := 4294967295
    slices := ⟨4, 4294967295, 4⟩ }

theorem ofRates_faults_fastProfile :
    fastProfile.validate = .ok () ∧ 2 ≤ fastProfile.serviceMax .sym ∧
      ofRates fastProfile .sym 2 2 = .error (.fault .multiplyOverflow) := by
  decide +kernel

end Tokens

/-! ## Rates that are worth tokens -/

namespace Profile

variable {profile : Profile} {service : Service} {rate : Nat}

/-- Whether the tokens of a dimension are none whatever the rate: decompression puts nothing out if no
slice counts for its output. -/
def Muted (profile : Profile) (service : Service) (dimension : Dimension) : Prop :=
  service = .dc ∧ dimension = .pcie .output ∧ profile.slices.dc = profile.dcCorrection

theorem clippedWorth_mono {dimension : Dimension} {higher : Nat} (below : rate ≤ higher) :
    profile.clippedWorth service dimension rate ≤ profile.clippedWorth service dimension higher := by
  have ordered := (profile.worth_superadditive service dimension).mono below
  cases dimension with
  | pcie direction =>
      have moved := (profile.bytesWorth_superadditive service direction).mono below
      apply Word.saturate_mono
      apply scanWorth_mono
      exact Word.saturate_mono (Nat.mul_le_mul_right _ moved)
  | slice | engine => exact Word.saturate_mono ordered

theorem tokensFor_mono {dimension : Dimension} {higher : Nat} {fewer more : UInt32}
    (low : profile.tokensFor service dimension rate = .ok fewer)
    (high : profile.tokensFor service dimension higher = .ok more) (below : rate ≤ higher) :
    fewer ≤ more := by
  rw [UInt32.le_iff_toNat_le, tokensFor_eq_ok low, tokensFor_eq_ok high]
  exact clippedWorth_mono below

/-- No fewer bytes go out than come in, unless none go out at all. -/
theorem Usable.bytesWorth_input_le (usable : profile.Usable)
    (audible : ¬profile.Muted service (.pcie .output)) :
    profile.bytesWorth service .input rate ≤ profile.bytesWorth service .output rate := by
  cases service with
  | asym | sym => exact le_rfl
  | dc =>
      have counting : 1 ≤ profile.slices.dc.toNat - profile.dcCorrection.toNat := by
        have within := usable.dcCorrection
        have apart : profile.slices.dc.toNat ≠ profile.dcCorrection.toNat := fun same =>
          audible ⟨rfl, rfl, UInt32.toNat.inj same⟩
        omega
      exact Nat.le_mul_of_pos_right _ counting

theorem Usable.tokensFor_input_le (usable : profile.Usable)
    (audible : ¬profile.Muted service (.pcie .output)) {taken given : UInt32}
    (input : profile.tokensFor service (.pcie .input) rate = .ok taken)
    (output : profile.tokensFor service (.pcie .output) rate = .ok given) : taken ≤ given := by
  rw [UInt32.le_iff_toNat_le, tokensFor_eq_ok input, tokensFor_eq_ok output]
  apply Word.saturate_mono
  apply scanWorth_mono
  exact Word.saturate_mono (Nat.mul_le_mul_right _ (usable.bytesWorth_input_le audible))

theorem Muted.tokensFor_eq_zero {dimension : Dimension} (muted : profile.Muted service dimension)
    {tokens : UInt32} (computed : profile.tokensFor service dimension rate = .ok tokens) :
    tokens = 0 := by
  rcases muted with ⟨rfl, rfl, same⟩
  have worthless : tokens.toNat = 0 := by
    rw [tokensFor_eq_ok computed]
    simp [clippedWorth, bytesWorth, same, scanWorth, Word.saturate]
  exact UInt32.toNat.inj worthless

end Profile

namespace Tokens

variable {profile : Profile} {service : Service} {cir pir : Nat} {tokens : Tokens}

/-- The tokens of a committed rate that is not zero and was not refused are not zero in any dimension
that is not muted. -/
theorem committed_pos (usable : profile.Usable) (some_rate : 0 < cir)
    (given : ofRates profile service cir pir = .ok tokens) {dimension : Dimension}
    (audible : ¬profile.Muted service dimension) : 0 < tokens.committed.count dimension := by
  rcases ofRates_eq_ok.1 given with ⟨computed, enough⟩
  rcases enough some_rate.ne' with ⟨input, slice, engine⟩
  rw [UInt32.pos_iff_ne_zero]
  rcases dimension with (_ | _) | _ | _
  · exact input
  · have least := usable.tokensFor_input_le audible (compute_eq_ok.1 computed (.pcie .input)).1
      (compute_eq_ok.1 computed (.pcie .output)).1
    intro none
    rw [none, UInt32.le_zero_iff] at least
    exact input least
  · exact slice
  · exact engine

/-- Two rates that are not refused are worth tokens in every dimension, except that decompression is
given no tokens for its output by a device all of whose slices are discounted. -/
theorem ofRates_nonzero_unless_muted (valid : profile.validate = .ok ()) (some_rate : 0 < cir)
    (ordered : cir ≤ pir) (given : ofRates profile service cir pir = .ok tokens)
    (dimension : Dimension) :
    (¬profile.Muted service dimension →
      tokens.committed.count dimension ≠ 0 ∧ tokens.peak.count dimension ≠ 0) ∧
    (profile.Muted service dimension →
      tokens.committed.count dimension = 0 ∧ tokens.peak.count dimension = 0) := by
  rcases compute_eq_ok.1 (ofRates_eq_ok.1 given).1 dimension with ⟨low, high⟩
  constructor
  · intro audible
    have committed := committed_pos (Profile.usable_of_validate valid) some_rate given audible
    have peak := UInt32.lt_of_lt_of_le committed (Profile.tokensFor_mono low high ordered)
    exact ⟨UInt32.pos_iff_ne_zero.1 committed, UInt32.pos_iff_ne_zero.1 peak⟩
  · intro muted
    exact ⟨muted.tokensFor_eq_zero low, muted.tokensFor_eq_zero high⟩

/-- What two rates of compression are worth on the default device. -/
def sampleTokens : Tokens := ⟨⟨2088, 6264, 93174, 93174⟩, ⟨4176, 12529, 186349, 186349⟩⟩

theorem sampleTokens_nonzero :
    Profile.gen4.validate = .ok () ∧ 0 < 1000 ∧ 1000 ≤ 2000 ∧
      ofRates .gen4 .dc 1000 2000 = .ok sampleTokens ∧
      ¬Profile.gen4.Muted .dc (.pcie .output) ∧
      sampleTokens.committed.count (.pcie .output) ≠ 0 ∧
      sampleTokens.peak.count (.pcie .output) ≠ 0 := by
  have valid : Profile.gen4.validate = .ok () := by decide +kernel
  have given : ofRates .gen4 .dc 1000 2000 = .ok sampleTokens := by decide +kernel
  have audible : ¬Profile.gen4.Muted .dc (.pcie .output) := by
    rintro ⟨-, -, same⟩
    exact absurd same (by decide)
  exact ⟨valid, by decide, by decide, given, audible,
    (ofRates_nonzero_unless_muted valid (by decide) (by decide) given (.pcie .output)).1 audible⟩

/-- A profile that discounts every slice passes the checks. -/
def discountedProfile : Profile := { Profile.gen4 with dcCorrection := 4 }

theorem ofRates_zero_discountedProfile :
    discountedProfile.validate = .ok () ∧ 2000 ≤ discountedProfile.serviceMax .dc ∧
      ofRates discountedProfile .dc 1000 2000 =
        .ok ⟨⟨2088, 0, 93174, 93174⟩, ⟨4176, 0, 186349, 186349⟩⟩ := by
  decide +kernel

end Tokens

end RateTree
