import RateTree.Proofs.Rings

/-!
# What rates are worth

The number of tokens that a rate is worth in a dimension is a chain of products and of quotients
rounded toward zero. No such step gains by splitting a rate: two rates are worth no more on their own
than together. The token functions compute the worth of a rate in words and clip what does not fit.
If they are exact at the largest rate of a service, they are exact at every lower rate as well.
-/

namespace RateTree

/-- Whether amounts are worth no more on their own than together. -/
def Superadditive (worth : Nat → Nat) : Prop :=
  ∀ rate other, worth rate + worth other ≤ worth (rate + other)

namespace Superadditive

variable {worth : Nat → Nat}

theorem id : Superadditive fun rate => rate := fun _ _ => Nat.le_refl _

theorem mono (super : Superadditive worth) {rate higher : Nat} (below : rate ≤ higher) :
    worth rate ≤ worth higher := by
  have together := super rate (higher - rate)
  rw [Nat.add_sub_cancel' below] at together
  omega

theorem mul (super : Superadditive worth) (factor : Nat) :
    Superadditive fun rate => worth rate * factor := by
  intro rate other
  rw [← Nat.add_mul]
  exact Nat.mul_le_mul_right factor (super rate other)

theorem div (super : Superadditive worth) (divisor : Nat) :
    Superadditive fun rate => worth rate / divisor := by
  intro rate other
  calc worth rate / divisor + worth other / divisor
      ≤ (worth rate + worth other) / divisor := Nat.div_add_div_le_add_div
    _ ≤ worth (rate + other) / divisor := Nat.div_le_div_right (super rate other)

/-- Nothing is gained by splitting an amount into many. -/
theorem sum_le (super : Superadditive worth) (rates : List Nat) :
    (rates.map worth).sum ≤ worth rates.sum := by
  induction rates with
  | nil => simp
  | cons rate rest ih =>
      have split := super rate rest.sum
      simp only [List.map_cons, List.sum_cons]
      omega

end Superadditive

namespace Word

theorem div_eq_ok {dividend divisor value : Nat} (computed : div dividend divisor = .ok value) :
    value = dividend / divisor := by
  simp only [div] at computed
  split at computed
  · contradiction
  · exact (Except.ok.inj computed).symm

theorem saturate_le (width value : Nat) : saturate width value ≤ value := Nat.min_le_left _ _

/-- A function of amounts that are clipped to a word, and whose own value is clipped, is exact at every
amount below one that it is exact at. -/
theorem saturate_eq_of_le {inner outer amount largest : Nat} {worth : Nat → Nat}
    (mono : ∀ {lower higher : Nat}, lower ≤ higher → worth lower ≤ worth higher)
    (exact_largest : saturate outer (worth (saturate inner largest)) = worth largest)
    (below : amount ≤ largest) :
    saturate outer (worth (saturate inner amount)) = worth amount := by
  have ordered := mono below
  have clipped : worth largest ≤ worth (saturate inner largest) := by
    rw [← exact_largest]
    exact saturate_le _ _
  have fits : worth largest ≤ size outer - 1 := by
    rw [← exact_largest]
    exact Nat.min_le_right _ _
  have same : worth (saturate inner amount) = worth amount := by
    by_cases small : amount ≤ size inner - 1
    · rw [saturate, Nat.min_eq_left small]
    · -- The inner word cuts `largest` off at the same value, so the worth of `amount` lies between two
      -- equal ones.
      have cut : saturate inner amount = saturate inner largest := by
        simp only [saturate]
        omega
      have lowered := mono (saturate_le inner amount)
      rw [cut] at lowered ⊢
      omega
  rw [same, saturate]
  omega

end Word

theorem toNat_toWord32 (value : Nat) : (toWord32 value).toNat = Word.saturate 32 value := by
  have small : Word.saturate 32 value < 2 ^ 32 := by
    have fits : Word.saturate 32 value ≤ 2 ^ 32 - 1 := Nat.min_le_right _ _
    omega
  exact Nat.mod_eq_of_lt small

/-- The dimensions that tokens are counted in. -/
inductive Dimension where
  | pcie (direction : Direction)
  | slice
  | engine

/-- The tokens in a dimension. -/
def TokenSet.count (tokens : TokenSet) : Dimension → UInt32
  | .pcie .input => tokens.pcieIn
  | .pcie .output => tokens.pcieOut
  | .slice => tokens.slice
  | .engine => tokens.engine

namespace Profile

variable (profile : Profile) (service : Service)

/-- What the token functions compute in a dimension. -/
def tokensFor (dimension : Dimension) (rate : Nat) : Except Fault UInt32 :=
  match dimension with
  | .pcie direction => profile.pcieTokens service direction rate
  | .slice => profile.sliceTokens service rate
  | .engine => profile.engineTokens service rate

/-! ## Worth without words -/

/-- The rate of asymmetric crypto in requests. -/
def requestsWorth (rate : Nat) : Nat :=
  rate * profile.maxThroughput.asym.toNat / profile.sliceReference.toNat

/-- The bytes that a rate moves in a direction, before they are scaled to the link. -/
def bytesWorth (direction : Direction) (rate : Nat) : Nat :=
  match service, direction with
  | .asym, _ => profile.requestsWorth rate * bytesPerAsymRequest
  | .sym, _ | .dc, .input => rate * bytesPerMegabit
  | .dc, .output =>
    rate * bytesPerMegabit * (profile.slices.dc.toNat - profile.dcCorrection.toNat)

/-- The tokens that an amount of scaled bytes is worth in a scan. -/
def scanWorth (scaled : Nat) : Nat :=
  scaled / profile.pcieDivisor.toNat / bytesPerToken / profile.scanInterval.toNat

/-- The clock cycles that a number of units have between two scans, rounded down. -/
def cyclesWorth (units : UInt32) : Nat :=
  profile.clockFrequency.toNat * units.toNat / profile.scanInterval.toNat

/-- The throughput of a rate in the unit in which the service is measured. -/
def throughputWorth (rate : Nat) : Nat :=
  match service with
  | .asym => profile.requestsWorth rate
  | .sym | .dc => rate

/-- The tokens that a rate is worth in a dimension. -/
def worth (dimension : Dimension) (rate : Nat) : Nat :=
  match dimension with
  | .pcie direction => profile.scanWorth (profile.bytesWorth service direction rate *
      profile.pcieMultiplier.toNat)
  | .slice => rate * profile.cyclesWorth (profile.slices.get service) / profile.serviceMax service
  | .engine => profile.throughputWorth service rate *
      profile.cyclesWorth (profile.engines.get service) /
      (profile.maxThroughput.get service).toNat

theorem requestsWorth_superadditive : Superadditive profile.requestsWorth :=
  (Superadditive.id.mul _).div _

theorem bytesWorth_superadditive (direction : Direction) :
    Superadditive (profile.bytesWorth service direction) := by
  cases service with
  | asym => exact profile.requestsWorth_superadditive.mul _
  | sym => exact Superadditive.id.mul _
  | dc =>
      cases direction with
      | input => exact Superadditive.id.mul _
      | output => exact (Superadditive.id.mul _).mul _

theorem throughputWorth_superadditive : Superadditive (profile.throughputWorth service) := by
  cases service with
  | asym => exact profile.requestsWorth_superadditive
  | sym | dc => exact Superadditive.id

/-- No dimension gains by splitting a rate. -/
theorem worth_superadditive (dimension : Dimension) :
    Superadditive (profile.worth service dimension) := by
  cases dimension with
  | pcie direction =>
      exact ((((profile.bytesWorth_superadditive service direction).mul _).div _).div _).div _
  | slice => exact (Superadditive.id.mul _).div _
  | engine => exact ((profile.throughputWorth_superadditive service).mul _).div _

/-! ## Worth in words -/

/-- The worth of a rate, clipped where the token functions clip it. -/
def clippedWorth (dimension : Dimension) (rate : Nat) : Nat :=
  match dimension with
  | .pcie direction => Word.saturate 32 (profile.scanWorth (Word.saturate 64
      (profile.bytesWorth service direction rate * profile.pcieMultiplier.toNat)))
  | .slice | .engine => Word.saturate 32 (profile.worth service dimension rate)

variable {profile service}

theorem bytesOf_eq_ok {direction : Direction} {rate bytes : Nat}
    (computed : profile.bytesOf service direction rate = .ok bytes) :
    bytes = profile.bytesWorth service direction rate := by
  cases service with
  | asym =>
      simp only [bytesOf, Outcome.bind_eq_ok] at computed
      rcases computed with ⟨scaled, scaling, requests, dividing, counting⟩
      rw [Word.mul_eq_ok counting, Word.div_eq_ok dividing, Word.mul_eq_ok scaling]
      rfl
  | sym => exact Word.mul_eq_ok computed
  | dc =>
      cases direction with
      | input => exact Word.mul_eq_ok computed
      | output =>
          simp only [bytesOf, Outcome.bind_eq_ok] at computed
          rcases computed with ⟨input, scaling, growing⟩
          rw [Word.mul_eq_ok growing, Word.mul_eq_ok scaling]
          rfl

theorem bytesWorth_zero (direction : Direction) : profile.bytesWorth service direction 0 = 0 := by
  cases service <;> cases direction <;> simp [bytesWorth, requestsWorth]

theorem pcieTokens_eq_ok {direction : Direction} {rate : Nat} {tokens : UInt32}
    (computed : profile.pcieTokens service direction rate = .ok tokens) :
    tokens.toNat = profile.clippedWorth service (.pcie direction) rate := by
  simp only [pcieTokens] at computed
  split at computed
  · next none =>
    cases computed
    simp [none, clippedWorth, bytesWorth_zero, scanWorth, Word.saturate]
  · simp only [Outcome.bind_eq_ok, Outcome.pure_eq_ok] at computed
    rcases computed with ⟨bytes, moved, scaled, scaling, count, counting, rfl⟩
    rw [toNat_toWord32, Word.div_eq_ok counting, Word.div_eq_ok scaling, bytesOf_eq_ok moved]
    rfl

theorem cyclesPerScan_eq_ok {units : UInt32} {cycles : Nat}
    (computed : profile.cyclesPerScan units = .ok cycles) : cycles = profile.cyclesWorth units := by
  simp only [cyclesPerScan, Outcome.bind_eq_ok] at computed
  rcases computed with ⟨all, counting, dividing⟩
  rw [Word.div_eq_ok dividing, Word.mul_eq_ok counting]
  rfl

theorem sliceTokens_eq_ok {rate : Nat} {tokens : UInt32}
    (computed : profile.sliceTokens service rate = .ok tokens) :
    tokens.toNat = profile.clippedWorth service .slice rate := by
  simp only [sliceTokens] at computed
  split at computed
  · next none =>
    cases computed
    simp [none, clippedWorth, worth, Word.saturate]
  · simp only [Outcome.bind_eq_ok, Outcome.pure_eq_ok] at computed
    rcases computed with ⟨available, cycles, share, sharing, count, counting, rfl⟩
    rw [toNat_toWord32, Word.div_eq_ok counting, Word.mul_eq_ok sharing, cyclesPerScan_eq_ok cycles,
      Nat.mul_comm]
    rfl

theorem throughputOf_eq_ok {rate throughput : Nat}
    (computed : profile.throughputOf service rate = .ok throughput) :
    throughput = profile.throughputWorth service rate := by
  cases service with
  | asym =>
      simp only [throughputOf, Outcome.bind_eq_ok] at computed
      rcases computed with ⟨scaled, scaling, dividing⟩
      rw [Word.div_eq_ok dividing, Word.mul_eq_ok scaling]
      rfl
  | sym | dc => exact (Except.ok.inj computed).symm

theorem engineTokens_eq_ok {rate : Nat} {tokens : UInt32}
    (computed : profile.engineTokens service rate = .ok tokens) :
    tokens.toNat = profile.clippedWorth service .engine rate := by
  simp only [engineTokens] at computed
  split at computed
  · next none =>
    cases computed
    cases service <;> simp [none, clippedWorth, worth, throughputWorth, requestsWorth, Word.saturate]
  · simp only [Outcome.bind_eq_ok, Outcome.pure_eq_ok] at computed
    rcases computed with ⟨available, cycles, throughput, measured, share, sharing, count, counting,
      rfl⟩
    rw [toNat_toWord32, Word.div_eq_ok counting, Word.mul_eq_ok sharing,
      throughputOf_eq_ok measured, cyclesPerScan_eq_ok cycles]
    rfl

theorem tokensFor_eq_ok {dimension : Dimension} {rate : Nat} {tokens : UInt32}
    (computed : profile.tokensFor service dimension rate = .ok tokens) :
    tokens.toNat = profile.clippedWorth service dimension rate := by
  cases dimension with
  | pcie direction => exact pcieTokens_eq_ok computed
  | slice => exact sliceTokens_eq_ok computed
  | engine => exact engineTokens_eq_ok computed

theorem scanWorth_mono {amount higher : Nat} (below : amount ≤ higher) :
    profile.scanWorth amount ≤ profile.scanWorth higher := by
  have super : Superadditive profile.scanWorth := ((Superadditive.id.div _).div _).div _
  exact super.mono below

theorem clippedWorth_le (dimension : Dimension) (rate : Nat) :
    profile.clippedWorth service dimension rate ≤ profile.worth service dimension rate := by
  cases dimension with
  | pcie direction =>
      apply Nat.le_trans (Word.saturate_le _ _)
      exact scanWorth_mono (Word.saturate_le _ _)
  | slice | engine => exact Word.saturate_le _ _

theorem clippedWorth_eq_of_le {dimension : Dimension} {rate largest : Nat}
    (exact_largest : profile.clippedWorth service dimension largest =
      profile.worth service dimension largest) (below : rate ≤ largest) :
    profile.clippedWorth service dimension rate = profile.worth service dimension rate := by
  have ordered := (profile.worth_superadditive service dimension).mono below
  cases dimension with
  | pcie direction =>
      have moved := (profile.bytesWorth_superadditive service direction).mono below
      exact Word.saturate_eq_of_le scanWorth_mono exact_largest (Nat.mul_le_mul_right _ moved)
  | slice | engine =>
      simp only [clippedWorth, Word.saturate] at exact_largest ⊢
      omega

/-- Whether the token functions are exact at the largest rate of every service: no step overflows its
word, and nothing is clipped. -/
def Unclipped (profile : Profile) : Prop :=
  ∀ service dimension,
    UInt32.toNat <$> profile.tokensFor service dimension (profile.serviceMax service) =
      .ok (profile.worth service dimension (profile.serviceMax service))

theorem unclipped_gen4 : gen4.Unclipped := by
  intro service dimension
  cases service <;> rcases dimension with (_ | _) | _ | _ <;> decide +kernel

/-- What the token functions compute of a rate is at most what the rate is worth, and no less if they
are exact at the largest rate of the service. -/
theorem tokensFor_le_worth {dimension : Dimension} {rate : Nat} {tokens : UInt32}
    (computed : profile.tokensFor service dimension rate = .ok tokens) :
    tokens.toNat ≤ profile.worth service dimension rate := by
  rw [tokensFor_eq_ok computed]
  exact clippedWorth_le dimension rate

theorem Unclipped.tokensFor_eq_worth (unclipped : profile.Unclipped) {dimension : Dimension}
    {rate : Nat} {tokens : UInt32}
    (computed : profile.tokensFor service dimension rate = .ok tokens)
    (below : rate ≤ profile.serviceMax service) :
    tokens.toNat = profile.worth service dimension rate := by
  rcases Outcome.map_eq_ok.1 (unclipped service dimension) with ⟨most, reached, exact_most⟩
  rw [tokensFor_eq_ok computed]
  rw [tokensFor_eq_ok reached] at exact_most
  exact clippedWorth_eq_of_le exact_most below

end Profile

namespace Tokens

variable {profile : Profile} {service : Service} {cir pir : Nat} {tokens : Tokens}

/-- The tokens of two rates are those of each of them in each dimension. -/
theorem compute_eq_ok :
    compute profile service cir pir = .ok tokens ↔ ∀ dimension,
      profile.tokensFor service dimension cir = .ok (tokens.committed.count dimension) ∧
        profile.tokensFor service dimension pir = .ok (tokens.peak.count dimension) := by
  simp only [compute, Outcome.bind_eq_ok, Outcome.pure_eq_ok]
  constructor
  · rintro ⟨_, inCir, _, inPir, _, outCir, _, outPir, _, sliceCir, _, slicePir, _, engineCir, _,
      enginePir, rfl⟩ dimension
    rcases dimension with (_ | _) | _ | _
    · exact ⟨inCir, inPir⟩
    · exact ⟨outCir, outPir⟩
    · exact ⟨sliceCir, slicePir⟩
    · exact ⟨engineCir, enginePir⟩
  · intro each
    exact ⟨_, (each (.pcie .input)).1, _, (each (.pcie .input)).2, _, (each (.pcie .output)).1, _,
      (each (.pcie .output)).2, _, (each .slice).1, _, (each .slice).2, _, (each .engine).1, _,
      (each .engine).2, rfl⟩

theorem exists_compute
    (each : ∀ dimension, (∃ count, profile.tokensFor service dimension cir = .ok count) ∧
      ∃ count, profile.tokensFor service dimension pir = .ok count) :
    ∃ tokens, compute profile service cir pir = .ok tokens := by
  have committed dimension := (each dimension).1
  have peak dimension := (each dimension).2
  choose low low_computed using committed
  choose high high_computed using peak
  refine ⟨⟨⟨low (.pcie .input), low (.pcie .output), low .slice, low .engine⟩,
    ⟨high (.pcie .input), high (.pcie .output), high .slice, high .engine⟩⟩, compute_eq_ok.2 ?_⟩
  intro dimension
  rcases dimension with (_ | _) | _ | _ <;> exact ⟨low_computed _, high_computed _⟩

/-- Tokens are given out as they are computed, unless the committed rate is too low. -/
theorem ofRates_eq_ok :
    ofRates profile service cir pir = .ok tokens ↔ compute profile service cir pir = .ok tokens ∧
      (cir ≠ 0 → tokens.committed.pcieIn ≠ 0 ∧ tokens.committed.slice ≠ 0 ∧
        tokens.committed.engine ≠ 0) := by
  simp only [ofRates, Outcome.bind_eq_ok, Outcome.liftFault_eq_ok]
  constructor
  · rintro ⟨counts, counting, enough⟩
    split at enough
    · cases enough
    · next worth =>
      cases enough
      refine ⟨counting, ?_⟩
      tauto
  · rintro ⟨counting, worth⟩
    refine ⟨tokens, counting, ?_⟩
    rw [if_neg (by tauto)]
    rfl

/-- The committed tokens of an agreement are those of its committed rate. -/
theorem committed_of_ofRates (computed : ofRates profile service cir pir = .ok tokens)
    (dimension : Dimension) :
    profile.tokensFor service dimension cir = .ok (tokens.committed.count dimension) :=
  (compute_eq_ok.1 (ofRates_eq_ok.1 computed).1 dimension).1

end Tokens

end RateTree
