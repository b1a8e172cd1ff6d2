import RateTree.Proofs.Commits.Create
import RateTree.Proofs.Commits.Delete
import RateTree.Proofs.Commits.Update
import RateTree.Proofs.Runs

/-!
# The invariant of runs

The tree of a limiter is well-formed at all times of every run. An operation on an agreement either
does not get past its plan, or is failed by the device, or is carried out; only in the last case does
the tree change, by the commit of an accepted plan.
-/

namespace RateTree

/-- Two trees belong to devices with the same constants. -/
def Tree.SameConstants (tree after : Tree) : Prop :=
  after.profile = tree.profile ∧ after.config = tree.config

namespace Limiter

variable {δ α π : Type}

/-- How an operation that is planned, applied and committed ends, and what it leaves behind. -/
inductive CarriedOut (plan : Tree → Outcome π) (apply : π → Action δ Unit) (commit : Tree → π → Tree)
    (result : π → α) (limiter : Limiter δ) : Outcome α × Limiter δ → Prop where
  | refused {failure : Failure} (planned : plan limiter.tree = .error failure) :
      CarriedOut plan apply commit result limiter (.error failure, limiter)
  | failed {accepted : π} {failure : Failure} {device : δ}
      (planned : plan limiter.tree = .ok accepted)
      (applied : apply accepted limiter.device = (.error failure, device)) :
      CarriedOut plan apply commit result limiter (.error failure, ⟨limiter.tree, device⟩)
  | done {accepted : π} {device : δ} (planned : plan limiter.tree = .ok accepted)
      (applied : apply accepted limiter.device = (.ok (), device)) :
      CarriedOut plan apply commit result limiter
        (.ok (result accepted), ⟨commit limiter.tree accepted, device⟩)

theorem carryOut_cases (plan : Tree → Outcome π) (apply : π → Action δ Unit)
    (commit : Tree → π → Tree) (result : π → α) (limiter : Limiter δ) :
    CarriedOut plan apply commit result limiter (carryOut plan apply commit result limiter) := by
  simp only [carryOut]
  split
  · next failure planned => exact .refused planned
  · next accepted planned =>
    split
    · next device applied => exact .done planned applied
    · next failure device applied => exact .failed planned applied

/-- An operation that succeeds was planned, applied and committed. -/
theorem carryOut_eq_ok {plan : Tree → Outcome π} {apply : π → Action δ Unit}
    {commit : Tree → π → Tree} {result : π → α} {limiter after : Limiter δ} {value : α}
    (done : carryOut plan apply commit result limiter = (.ok value, after)) :
    ∃ accepted, plan limiter.tree = .ok accepted ∧
      apply accepted limiter.device = (.ok (), after.device) ∧ value = result accepted ∧
      after.tree = commit limiter.tree accepted := by
  have ended := carryOut_cases plan apply commit result limiter
  rw [done] at ended
  cases ended with
  | @done accepted device planned applied => exact ⟨accepted, planned, applied, rfl, rfl⟩

theorem carryOut_keeps {holds : Tree → Prop} {plan : Tree → Outcome π} {apply : π → Action δ Unit}
    {commit : Tree → π → Tree} {result : π → α} {limiter : Limiter δ} (before : holds limiter.tree)
    (committed : ∀ accepted, plan limiter.tree = .ok accepted →
      holds (commit limiter.tree accepted)) :
    holds (carryOut plan apply commit result limiter).2.tree := by
  have ended := carryOut_cases plan apply commit result limiter
  generalize carryOut plan apply commit result limiter = finished at ended ⊢
  cases ended with
  | refused planned => exact before
  | failed planned applied => exact before
  | done planned applied => exact committed _ planned

theorem onTree_keeps {holds : Tree → Prop} {change : Tree → Except Error (α × Tree)}
    {limiter : Limiter δ} (before : holds limiter.tree)
    (changed : ∀ value tree, change limiter.tree = .ok (value, tree) → holds tree) :
    holds (onTree change limiter).2.tree := by
  simp only [onTree]
  split
  · next value tree made => exact changed value tree made
  · exact before

/-- The tree that has roots and nothing else is made of the constants and of what making the roots
left. -/
theorem rootsOnly_eq_ok {profile : Profile} {config : DeviceConfig} {tree : Tree}
    (made : rootsOnly profile config = .ok tree) :
    tree.profile = profile ∧ tree.config = config ∧
      Roots.build config.services (NodeStore.empty, Census.zero) =
        (.ok tree.roots, (tree.nodes, tree.census)) := by
  simp only [rootsOnly] at made
  split at made
  · next roots nodes census built =>
    cases made
    exact ⟨rfl, rfl, built⟩
  · cases made

/-- The tree that has the roots of a valid configuration is well-formed. -/
theorem wellFormed_rootsOnly {profile : Profile} {config : DeviceConfig} {tree : Tree}
    (profile_valid : profile.validate = .ok ()) (config_valid : config.validate = .ok ())
    (made : rootsOnly profile config = .ok tree) : tree.WellFormed := by
  rcases rootsOnly_eq_ok made with ⟨rfl, rfl, built⟩
  rcases Roots.Seeded.empty.extend built with ⟨seeded, registered⟩
  apply seeded.wellFormed profile_valid config_valid
  intro service
  rw [registered]
  simp [Roots.id?, Roots.none]

/-- The tree that has roots and nothing else carries no agreement. -/
theorem vacant_rootsOnly {profile : Profile} {config : DeviceConfig} {tree : Tree}
    (made : rootsOnly profile config = .ok tree) {id : NodeId} {node : Node}
    (found : tree.nodes.find? id = some node) : node.configured = false := by
  rcases Roots.Seeded.empty.extend (rootsOnly_eq_ok made).2.2 with ⟨seeded, -⟩
  rw [(seeded.fresh id node found).2.1]
  rfl

variable [RegisterAccess δ] [BlockMemory δ] [AdminTransport δ]

omit [BlockMemory δ] in
/-- A limiter is prepared with valid constants, a reset, the roots and two written registers. -/
theorem prepare_eq_ok {profile : Profile} {config : DeviceConfig} {device ready : δ} {tree : Tree} :
    prepare profile config device = (.ok tree, ready) ↔
      profile.validate = .ok () ∧ config.validate = .ok () ∧ rootsOnly profile config = .ok tree ∧
        ∃ reset cleared, AdminChannel.sendInit device = (.ok (), reset) ∧
          writeRegister profile.pcieInBucket 0 reset = (.ok (), cleared) ∧
          writeRegister profile.pcieOutBucket 0 cleared = (.ok (), ready) := by
  simp only [prepare, Action.bind_eq_ok, Action.liftError_apply, Action.lift_apply,
    Action.pure_apply, Prod.mk.injEq, Outcome.liftError_eq_ok, Except.ok.injEq]
  constructor
  · rintro ⟨_, _, ⟨profile_valid, rfl⟩, _, _, ⟨config_valid, rfl⟩, _, reset, sent, _, _, ⟨made, rfl⟩,
      _, cleared, first, _, _, second, rfl, rfl⟩
    exact ⟨profile_valid, config_valid, made, reset, cleared, sent, first, second⟩
  · rintro ⟨profile_valid, config_valid, made, reset, cleared, sent, first, second⟩
    exact ⟨(), device, ⟨profile_valid, rfl⟩, (), device, ⟨config_valid, rfl⟩, (), reset, sent, tree,
      reset, ⟨made, rfl⟩, (), cleared, first, (), ready, second, rfl, rfl⟩

theorem Call.wellFormed_leaves {limiter : Limiter δ} {call : Call} (admissible : call.Admissible)
    (sound : limiter.tree.WellFormed) : (call.leaves limiter).tree.WellFormed := by
  cases call with
  | createNode kind service =>
      exact onTree_keeps sound fun id tree made => sound.createNode made
  | removeNode id kind =>
      apply onTree_keeps sound
      intro _ tree removed
      rcases Outcome.map_eq_ok.1 removed with ⟨rest, removed, rest_eq⟩
      cases rest_eq
      exact sound.removeNode admissible.1 admissible.2 removed
  | createSla request =>
      exact carryOut_keeps sound fun plan planned => sound.commitCreate planned
  | updateSla request =>
      exact carryOut_keeps sound fun plan planned => sound.commitUpdate planned
  | deleteSla id =>
      exact carryOut_keeps sound fun plan planned => sound.commitDelete planned

/-- From a well-formed tree on, calls satisfy every condition that admissible calls satisfy on well-formed
trees. -/
theorem Steps.of_wellFormed {allowed : Tree → Call → Prop} {limiter after : Limiter δ}
    (always : ∀ tree : Tree, tree.WellFormed → ∀ call : Call, call.Admissible → allowed tree call)
    (sound : limiter.tree.WellFormed) (steps : Steps (fun _ _ => True) limiter after) :
    Steps allowed limiter after ∧ after.tree.WellFormed := by
  induction steps with
  | refl => exact ⟨Relation.ReflTransGen.refl, sound⟩
  | tail _ step ih =>
      rcases ih with ⟨reached, between⟩
      rcases step with ⟨call, admissible, -, rfl⟩
      exact ⟨reached.tail ⟨call, admissible, always _ between call admissible, rfl⟩,
        call.wellFormed_leaves admissible between⟩

theorem Underway.wellFormed {profile : Profile} {config : DeviceConfig} {initial : δ → Prop}
    {moves : δ → δ → Prop} {limiter : Limiter δ}
    (underway : Underway profile config initial moves limiter) : limiter.tree.WellFormed := by
  refine underway.keep (fun limiter => limiter.tree.WellFormed) ?_ ?_ ?_
  · intro device bare ready _ prepared
    rcases prepare_eq_ok.1 prepared with ⟨profile_valid, config_valid, made, -⟩
    exact wellFormed_rootsOnly profile_valid config_valid made
  · intro limiter call admissible sound
    exact call.wellFormed_leaves admissible sound
  · intro limiter device _ sound
    exact sound

theorem Reachable.wellFormed {profile : Profile} {config : DeviceConfig} {initial : δ → Prop}
    {moves : δ → δ → Prop} {limiter : Limiter δ}
    (reached : Reachable profile config initial moves limiter) : limiter.tree.WellFormed :=
  reached.underway.wellFormed

theorem Call.sameConstants {limiter : Limiter δ} (call : Call) (sound : limiter.tree.WellFormed) :
    limiter.tree.SameConstants (call.leaves limiter).tree := by
  cases call with
  | createNode kind service =>
      apply onTree_keeps ⟨rfl, rfl⟩
      intro id tree made
      rcases Tree.createNode_eq_ok sound made with ⟨-, -, -, -, after_eq⟩
      rw [after_eq]
      exact ⟨rfl, rfl⟩
  | removeNode id kind =>
      apply onTree_keeps ⟨rfl, rfl⟩
      intro _ tree removed
      rcases Outcome.map_eq_ok.1 removed with ⟨rest, removed, rest_eq⟩
      cases rest_eq
      rcases Tree.removeNode_eq_ok removed with ⟨_, _, -, -, after_eq⟩
      rw [after_eq]
      exact ⟨rfl, rfl⟩
  | createSla request => exact carryOut_keeps ⟨rfl, rfl⟩ fun _ _ => ⟨rfl, rfl⟩
  | updateSla request => exact carryOut_keeps ⟨rfl, rfl⟩ fun _ _ => ⟨rfl, rfl⟩
  | deleteSla id => exact carryOut_keeps ⟨rfl, rfl⟩ fun _ _ => ⟨rfl, rfl⟩

/-- A reachable limiter keeps the constants it came up with. -/
theorem Reachable.constants {profile : Profile} {config : DeviceConfig} {initial : δ → Prop}
    {moves : δ → δ → Prop} {limiter : Limiter δ}
    (reached : Reachable profile config initial moves limiter) :
    limiter.tree.profile = profile ∧ limiter.tree.config = config := by
  have both : limiter.tree.WellFormed ∧
      limiter.tree.profile = profile ∧ limiter.tree.config = config := by
    refine reached.underway.keep (fun limiter => limiter.tree.WellFormed ∧
      limiter.tree.profile = profile ∧ limiter.tree.config = config) ?_ ?_ ?_
    · intro device bare ready _ prepared
      rcases prepare_eq_ok.1 prepared with ⟨profile_valid, config_valid, made, -⟩
      rcases rootsOnly_eq_ok made with ⟨profile_eq, config_eq, -⟩
      exact ⟨wellFormed_rootsOnly profile_valid config_valid made, profile_eq, config_eq⟩
    · rintro limiter call admissible ⟨sound, profile_eq, config_eq⟩
      rcases call.sameConstants sound with ⟨same_profile, same_config⟩
      exact ⟨call.wellFormed_leaves admissible sound, same_profile.trans profile_eq,
        same_config.trans config_eq⟩
    · intro limiter device _ holds
      exact holds
  exact both.2

end Limiter

end RateTree
