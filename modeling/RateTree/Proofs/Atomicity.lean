import RateTree.Proofs.BenchDevice
import RateTree.Proofs.Mirror

/-!
# Failed operations change nothing

An operation on a node or an agreement that ends in an error, or whose plan ends in a fault, leaves the
tree, the link tables and the number of blocks in use as they were.
-/

namespace RateTree

namespace Limiter

variable {δ : Type} [LinkedDevice δ]

/-- Two limiters have the same tree, and devices with the same link tables and as many blocks handed
out. -/
structure Unchanged (limiter after : Limiter δ) : Prop where
  tree_eq : after.tree = limiter.tree
  device : Undisturbed limiter.device after.device

theorem Unchanged.refl (limiter : Limiter δ) : Unchanged limiter limiter := ⟨rfl, .refl _⟩

/-- Whether a failure is an error or the fault that a plan has ended in; any other failure is a fault
that has cut short the work on the device. -/
def EndsCleanly {π : Type} (planned : Outcome π) (failure : Failure) : Prop :=
  (∃ cause, failure = .error cause) ∨ planned = .error failure

theorem carryOut_unchanged {α π : Type} {plan : Tree → Outcome π} {apply : π → Action δ Unit}
    {commit : Tree → π → Tree} {result : π → α} {limiter after : Limiter δ} {failure : Failure}
    (mirrors : Mirrors limiter.tree limiter.device)
    (relinks : ∀ accepted, plan limiter.tree = .ok accepted →
      Relinks limiter.tree (commit limiter.tree accepted) (apply accepted) limiter.device)
    (run : carryOut plan apply commit result limiter = (.error failure, after))
    (clean : EndsCleanly (plan limiter.tree) failure) : Unchanged limiter after := by
  have ended := carryOut_cases plan apply commit result limiter
  rw [run] at ended
  cases ended with
  | refused planned => exact .refl limiter
  | failed planned applying =>
      rcases clean with ⟨cause, rfl⟩ | not_planned
      · exact ⟨rfl, ((relinks _ planned).of_error applying).2 mirrors⟩
      · rw [planned] at not_planned
        contradiction

/-- Operations that fail cleanly change nothing, whatever their arguments and whatever the transport
does. -/
theorem failed_operations_change_nothing {profile : Profile} {config : DeviceConfig}
    {limiter : Limiter δ} (reached : Reachable profile config LinksClear LinksStay limiter)
    (sound : intact limiter.device) :
    (∀ kind service failure after,
      createNode kind service limiter = (.error failure, after) → Unchanged limiter after) ∧
    (∀ request failure after, createSla request limiter = (.error failure, after) →
      EndsCleanly (limiter.tree.planCreate request) failure → Unchanged limiter after) ∧
    (∀ request failure after, updateSla request limiter = (.error failure, after) →
      EndsCleanly (limiter.tree.planUpdate request) failure → Unchanged limiter after) ∧
    ∀ id failure after, deleteSla id limiter = (.error failure, after) →
      EndsCleanly (limiter.tree.planDelete id) failure → Unchanged limiter after := by
  have mirrors := reached.mirrors sound
  have formed := reached.wellFormed
  refine ⟨?_, ?_, ?_, ?_⟩
  · intro kind service failure after run
    simp only [createNode, onTree] at run
    split at run
    · cases run
    · cases run
      exact .refl limiter
  · intro request failure after run clean
    exact carryOut_unchanged mirrors (fun plan planned => applyCreate_relinks formed planned) run
      clean
  · intro request failure after run clean
    exact carryOut_unchanged mirrors (fun plan planned => applyUpdate_relinks formed planned) run
      clean
  · intro id failure after run clean
    exact carryOut_unchanged mirrors (fun plan planned => applyDelete_relinks formed planned) run
      clean

/-- A limiter whose firmware will refuse the next request. -/
def refusing (limiter : Limiter Bench) : Limiter Bench :=
  { limiter with
    device := { limiter.device with
      firmware := { limiter.device.firmware with rejectNext := 1 } } }

omit [LinkedDevice δ] in
/-- In a run on a bench whose firmware refuses the next request, the first leaf is linked and unlinked
again, and nothing has changed. -/
theorem failed_operations_change_nothing_on_bench :
    ∃ limiter after : Limiter Bench, ∃ cause,
      Reachable Profile.gen4 smallConfig LinksClear LinksStay limiter ∧
      createSla firstLeaf limiter = (.error (.error cause), after) ∧
      after.device.sent = limiter.device.sent + 1 ∧ Unchanged limiter after := by
  have passed : comesUp (fun limiter =>
      let finished := createSla firstLeaf (refusing limiter)
      decide (limiter.device.pool.nextAddress < 2 ^ 64 ∧
        finished.1 = .error (.error (.admin .add (.status Firmware.rejected))) ∧
        finished.2.device.sent = limiter.device.sent + 1)) = true := by
    decide +kernel
  rcases exists_start passed with ⟨tree, bench, up, result⟩
  simp only [decide_eq_true_eq] at result
  rcases result with ⟨room, refused, sent⟩
  have clean : LinksClear Bench.fresh := fun _ _ _ => rfl
  have stay : LinksStay bench (refusing ⟨tree, bench⟩).device := ⟨fun _ _ _ => rfl, id⟩
  have reached : Reachable Profile.gen4 smallConfig LinksClear LinksStay (refusing ⟨tree, bench⟩) :=
    .moved (.started clean up) stay
  have created : createSla firstLeaf (refusing ⟨tree, bench⟩) =
      (.error (.error (.admin .add (.status Firmware.rejected))),
        (createSla firstLeaf (refusing ⟨tree, bench⟩)).2) := Prod.ext refused rfl
  rcases failed_operations_change_nothing reached room with ⟨-, unchanged, -⟩
  exact ⟨_, _, _, reached, created, sent, unchanged _ _ _ created (Or.inl ⟨_, rfl⟩)⟩

end Limiter

end RateTree
