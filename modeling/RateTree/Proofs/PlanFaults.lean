import RateTree.Proofs.Owners
import RateTree.Proofs.PlanErrors
import RateTree.Proofs.TokenWorth

/-!
# Plans without faults

A plan computes in words, and a step that does not fit its word is a fault. A plan that is worked out
on a well-formed tree computes the tokens of rates that passed the ceiling of their service, and the
rings of functions that passed as functions of the device. On a profile that can convert the largest
rate of every service into tokens it can therefore be refused, but it never faults.
-/

namespace RateTree

/-- Whether a failure is a fault. -/
def Failure.IsFault : Failure → Prop
  | .error _ => False
  | .fault _ => True

open Outcome (Avoids)

/-- A computation that does not fault. -/
abbrev Faultless {α : Type} (outcome : Outcome α) : Prop := Avoids Failure.IsFault outcome

namespace Outcome.Avoids

variable {ε α β : Type} {way : ε → Prop}

theorem bind_of_ok {outcome : Except ε α} {next : α → Except ε β} (first : Avoids way outcome)
    (second : ∀ value, outcome = .ok value → Avoids way (next value)) :
    Avoids way (outcome >>= next) := by
  cases outcome with
  | error failure =>
      rintro _ ⟨⟩
      exact first failure rfl
  | ok value => exact second value rfl

theorem of_ok {outcome : Except ε α} (ended : ∃ value, outcome = .ok value) :
    Avoids way outcome := by
  rcases ended with ⟨value, rfl⟩
  exact ok value

end Outcome.Avoids

/-- A check is refused with an error of its own. -/
theorem faultless_check {α : Type} (checked : Except Error α) :
    Faultless (liftM checked : Outcome α) := by
  cases checked with
  | error cause => exact .error id
  | ok value => exact .ok value

/-! ## Tokens -/

namespace Word

/-- A product fits if a larger one does. -/
theorem exists_mul_of_le {width left right larger largest product : Nat}
    (computed : mul width larger largest = .ok product) (below : left ≤ larger)
    (under : right ≤ largest) : ∃ smaller, mul width left right = .ok smaller := by
  simp only [mul] at computed
  split at computed
  · next fits =>
    exact ⟨_, if_pos (Nat.lt_of_le_of_lt (Nat.mul_le_mul below under) fits)⟩
  · contradiction

theorem exists_div {dividend divisor quotient : Nat} (computed : div dividend divisor = .ok quotient)
    (other : Nat) : ∃ result, div other divisor = .ok result := by
  simp only [div] at computed
  split at computed
  · contradiction
  · next positive => exact ⟨_, if_neg positive⟩

end Word

namespace Profile

variable {profile : Profile} {service : Service} {rate largest : Nat}

theorem exists_bytesOf {direction : Direction} {bytes : Nat} (below : rate ≤ largest)
    (computed : profile.bytesOf service direction largest = .ok bytes) :
    ∃ fewer, profile.bytesOf service direction rate = .ok fewer := by
  cases service with
  | asym =>
      simp only [bytesOf, Outcome.bind_eq_ok] at computed ⊢
      rcases computed with ⟨scaled, scaling, requests, dividing, counting⟩
      rcases Word.exists_mul_of_le scaling below le_rfl with ⟨less, scaling_less⟩
      rcases Word.exists_div dividing less with ⟨fewer, dividing_less⟩
      have ordered : fewer ≤ requests := by
        rw [Word.div_eq_ok dividing, Word.div_eq_ok dividing_less, Word.mul_eq_ok scaling,
          Word.mul_eq_ok scaling_less]
        exact Nat.div_le_div_right (Nat.mul_le_mul_right _ below)
      rcases Word.exists_mul_of_le counting ordered le_rfl with ⟨result, counting_less⟩
      exact ⟨result, less, scaling_less, fewer, dividing_less, counting_less⟩
  | sym => exact Word.exists_mul_of_le computed below le_rfl
  | dc =>
      cases direction with
      | input => exact Word.exists_mul_of_le computed below le_rfl
      | output =>
          simp only [bytesOf, Outcome.bind_eq_ok] at computed ⊢
          rcases computed with ⟨input, scaling, growing⟩
          rcases Word.exists_mul_of_le scaling below le_rfl with ⟨less, scaling_less⟩
          have ordered : less ≤ input := by
            rw [Word.mul_eq_ok scaling, Word.mul_eq_ok scaling_less]
            exact Nat.mul_le_mul_right _ below
          rcases Word.exists_mul_of_le growing ordered le_rfl with ⟨result, growing_less⟩
          exact ⟨result, less, scaling_less, growing_less⟩

theorem exists_throughputOf {throughput : Nat} (below : rate ≤ largest)
    (computed : profile.throughputOf service largest = .ok throughput) :
    ∃ less, profile.throughputOf service rate = .ok less ∧ less ≤ throughput := by
  have ordered := (profile.throughputWorth_superadditive service).mono below
  have exists_less : ∃ less, profile.throughputOf service rate = .ok less := by
    cases service with
    | asym =>
        simp only [throughputOf, Outcome.bind_eq_ok] at computed ⊢
        rcases computed with ⟨scaled, scaling, dividing⟩
        rcases Word.exists_mul_of_le scaling below le_rfl with ⟨less, scaling_less⟩
        rcases Word.exists_div dividing less with ⟨result, dividing_less⟩
        exact ⟨result, less, scaling_less, dividing_less⟩
    | sym | dc => exact ⟨rate, rfl⟩
  rcases exists_less with ⟨less, measured⟩
  refine ⟨less, measured, ?_⟩
  rw [throughputOf_eq_ok computed, throughputOf_eq_ok measured]
  exact ordered

/-- What can be computed of a rate can be computed of every lower rate. -/
theorem exists_tokensFor {dimension : Dimension} {most : UInt32} (below : rate ≤ largest)
    (computed : profile.tokensFor service dimension largest = .ok most) :
    ∃ tokens, profile.tokensFor service dimension rate = .ok tokens := by
  by_cases none : rate = 0
  · cases dimension <;> exact ⟨0, if_pos none⟩
  have some_rate : largest ≠ 0 := by omega
  cases dimension with
  | pcie direction =>
      simp only [tokensFor, pcieTokens, if_neg none, if_neg some_rate, Outcome.bind_eq_ok,
        Outcome.pure_eq_ok] at computed ⊢
      rcases computed with ⟨bytes, moved, scaled, scaling, count, counting, -⟩
      rcases exists_bytesOf below moved with ⟨fewer, moved_fewer⟩
      rcases Word.exists_div scaling (Word.saturate 64 (fewer * profile.pcieMultiplier.toNat)) with
        ⟨less, scaling_less⟩
      rcases Word.exists_div counting (less / bytesPerToken) with ⟨result, counting_less⟩
      exact ⟨_, fewer, moved_fewer, less, scaling_less, result, counting_less, rfl⟩
  | slice =>
      simp only [tokensFor, sliceTokens, if_neg none, if_neg some_rate, Outcome.bind_eq_ok,
        Outcome.pure_eq_ok] at computed ⊢
      rcases computed with ⟨available, cycles, share, sharing, count, counting, -⟩
      rcases Word.exists_mul_of_le sharing le_rfl below with ⟨less, sharing_less⟩
      rcases Word.exists_div counting less with ⟨result, counting_less⟩
      exact ⟨_, available, cycles, less, sharing_less, result, counting_less, rfl⟩
  | engine =>
      simp only [tokensFor, engineTokens, if_neg none, if_neg some_rate, Outcome.bind_eq_ok,
        Outcome.pure_eq_ok] at computed ⊢
      rcases computed with ⟨available, cycles, throughput, measured, share, sharing, count, counting, -⟩
      rcases exists_throughputOf below measured with ⟨less, measured_less, ordered⟩
      rcases Word.exists_mul_of_le sharing ordered le_rfl with ⟨part, sharing_less⟩
      rcases Word.exists_div counting part with ⟨result, counting_less⟩
      exact ⟨_, available, cycles, less, measured_less, part, sharing_less, result, counting_less, rfl⟩

/-- Whether the largest rate of every service can be converted into tokens. -/
def Converts (profile : Profile) : Prop :=
  ∀ service dimension, ∃ tokens,
    profile.tokensFor service dimension (profile.serviceMax service) = .ok tokens

theorem Unclipped.converts (unclipped : profile.Unclipped) : profile.Converts := by
  intro service dimension
  rcases Outcome.map_eq_ok.1 (unclipped service dimension) with ⟨tokens, computed, -⟩
  exact ⟨tokens, computed⟩

/-- Rates within the ceiling of their service can be converted. -/
theorem Converts.faultless_ofRates (converts : profile.Converts) {cir pir : Nat}
    (cir_le : cir ≤ profile.serviceMax service) (pir_le : pir ≤ profile.serviceMax service) :
    Faultless (Tokens.ofRates profile service cir pir) := by
  have each (dimension : Dimension) {rate : Nat} (below : rate ≤ profile.serviceMax service) :
      ∃ tokens, profile.tokensFor service dimension rate = .ok tokens := by
    rcases converts service dimension with ⟨most, computed⟩
    exact exists_tokensFor below computed
  rcases Tokens.exists_compute fun dimension => ⟨each dimension cir_le, each dimension pir_le⟩ with
    ⟨tokens, computed⟩
  refine Avoids.bind (.of_ok ⟨tokens, Outcome.liftFault_eq_ok.2 computed⟩) ?_
  intro tokens
  split
  · exact .error id
  · exact .ok tokens

end Profile

/-! ## Plans -/

namespace Tree.WellFormed

variable {tree : Tree} (sound : tree.WellFormed)

include sound

/-- The rings of a function that passed as one of the device can be numbered. -/
theorem faultless_ringsOf {sla : Sla} {root : NodeId}
    (served : tree.roots.id? sla.service = some root)
    (owner : sla.kind = .leaf → ∃ vf, sla.owner.checkedVf tree.config.totalVfs = .ok vf) :
    Faultless (tree.ringsOf sla) := by
  simp only [ringsOf]
  split
  · next level =>
    rcases owner level with ⟨vf, checked⟩
    have enabled := (sound.enabled sla.service).1 (by simp [served])
    exact .of_ok (DeviceConfig.exists_ringsFor sound.config_valid enabled checked _)
  · exact .ok []
  · exact .ok []

/-- The rings of what is in place are known. -/
theorem faultless_checkRingsFree (leaf : NodeId) (rings : List Nat) :
    Faultless (tree.checkRingsFree leaf rings) := by
  have known : ∀ other ∈ (tree.nodes.nodes .leaf).filter fun node =>
      node.configured && node.id != leaf, ∀ sla, other.sla = some sla →
        ∃ owned, tree.ringsOf sla = .ok owned := by
    intro other mem sla carried
    rcases sound.find?_of_mem_nodes (List.mem_filter.1 mem).1 with ⟨found, -⟩
    exact (sound.carries_of_sla found carried).rings
  rw [checkRingsFree]
  generalize (tree.nodes.nodes .leaf).filter (fun node => node.configured && node.id != leaf) =
    others at known
  induction others with
  | nil => exact .ok ()
  | cons other rest ih =>
      have later := ih fun item mem => known item (by simp [mem])
      simp only [checkRingsApart]
      split
      · exact later
      · next sla carried =>
        refine Avoids.bind (.of_ok (known other (by simp) sla carried)) ?_
        intro owned
        split
        · exact .error id
        · exact later

variable (converts : tree.profile.Converts)

include converts

theorem faultless_planCreate (request : Sla) : Faultless (tree.planCreate request) := by
  apply (faultless_check _).bind
  intro _
  apply (faultless_check _).bind_of_ok
  intro root served
  rw [Outcome.liftError_eq_ok, rootOf_eq_ok] at served
  apply (faultless_check _).bind_of_ok
  intro _ owner
  rw [Outcome.liftError_eq_ok, checkOwner_eq_ok] at owner
  apply (faultless_check _).bind
  intro _
  apply (faultless_check _).bind
  intro parent
  apply (faultless_check _).bind_of_ok
  intro _ place
  rw [Outcome.liftError_eq_ok, checkPlace_eq_ok] at place
  apply (converts.faultless_ofRates place.1 (Nat.max_le.2 ⟨place.1, place.2.1⟩)).bind
  intro tokens
  apply (sound.faultless_ringsOf served owner).bind
  intro rings
  apply (sound.faultless_checkRingsFree _ _).bind
  intro _
  exact .ok _

theorem faultless_planUpdate (request : Sla) : Faultless (tree.planUpdate request) := by
  apply (faultless_check _).bind
  intro kind
  apply (faultless_check _).bind
  intro _
  apply (faultless_check _).bind_of_ok
  rintro ⟨node, current⟩ located
  rw [Outcome.liftError_eq_ok, configuredNode_eq_ok] at located
  rcases located with ⟨found, -, carried⟩
  apply (faultless_check _).bind_of_ok
  intro _ rates
  rw [Outcome.liftError_eq_ok, checkNewRates_eq_ok] at rates
  apply (faultless_check _).bind
  intro _
  apply (faultless_check _).bind
  intro parent
  apply (faultless_check _).bind
  intro _
  apply (converts.faultless_ofRates rates.1 (Nat.max_le.2 rates)).bind
  intro tokens
  apply (Avoids.of_ok (sound.carries_of_sla found carried).rings).bind
  intro rings
  exact .ok _

omit converts in
theorem faultless_planDelete (id : NodeId) : Faultless (tree.planDelete id) := by
  apply (faultless_check _).bind
  intro kind
  apply (faultless_check _).bind
  intro _
  apply (faultless_check _).bind_of_ok
  rintro ⟨node, sla⟩ located
  rw [Outcome.liftError_eq_ok, configuredNode_eq_ok] at located
  rcases located with ⟨found, -, carried⟩
  apply (faultless_check _).bind
  intro _
  apply (Avoids.of_ok (sound.carries_of_sla found carried).rings).bind
  intro rings
  exact .ok _

end Tree.WellFormed

end RateTree
