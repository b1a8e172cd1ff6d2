import RateTree.Proofs.Invariant

/-!
# Peaks under peaks

A node is bound, changed or moved only within the peak rate of its parent. An update of the parent
asks whether the new committed rate covers what the children were promised; it does not ask about
their peak rates. Operations therefore keep the peak of every child within that of its parent, with
one exception: an accepted update that gives a node a lower peak than one of its children has.
-/

namespace RateTree

namespace Tree

/-- Whether no configured node has a higher peak rate than its parent allows. -/
def PeaksCapped (tree : Tree) : Prop :=
  ∀ id node sla above parent, tree.nodes.find? id = some node → node.configured = true →
    node.sla = some sla → node.parent = some above → tree.nodes.find? above = some parent →
    sla.pir ≤ parent.peak

/-- Whether the peak rate that a request asks for is enough for every configured child of its node.
A request's peak rate counts as raised to its committed rate. -/
def SparesChildren (tree : Tree) (request : Sla) : Prop :=
  ∀ id child sla, tree.nodes.find? id = some child → child.configured = true →
    child.sla = some sla → child.parent = some request.id → sla.pir ≤ max request.cir request.pir

variable {tree : Tree}

namespace PeaksCapped

section Rebind

variable {nodes : NodeStore} {census : Census} {id : NodeId} {old new : Node}
  {remainder : NodeId → Node → Nat}

/-- A rebound node has to stay within the peak of its parent, and its children within its own. -/
theorem rebind (capped : tree.PeaksCapped)
    (rebound : tree.nodes.Rebound nodes id old new remainder)
    (above : ∀ sla upper, new.configured = true → new.sla = some sla → new.parent = some upper →
      upper ≠ id ∧ ∃ parent, tree.nodes.find? upper = some parent ∧ sla.pir ≤ parent.peak)
    (below : ∀ other child sla, tree.nodes.find? other = some child → child.configured = true →
      child.sla = some sla → child.parent = some id → sla.pir ≤ new.peak) :
    ({ tree with nodes, census } : Tree).PeaksCapped := by
  intro other node sla upper parent found bound carried under located
  rcases rebound.eq_or_before found with ⟨rfl, rfl⟩ | ⟨-, child, was, rfl⟩
  · rcases above sla upper bound carried under with ⟨different, held, there, within⟩
    rcases rebound.eq_or_before located with ⟨same, -⟩ | ⟨-, before, parent_was, rfl⟩
    · contradiction
    · rw [there, Option.some.injEq] at parent_was
      rwa [← parent_was]
  · rcases rebound.eq_or_before located with ⟨rfl, rfl⟩ | ⟨-, before, parent_was, rfl⟩
    · exact below other child sla was bound carried under
    · exact capped other child sla upper before was bound carried under parent_was

end Rebind

/-- A slot that comes or goes without an agreement is nobody's parent and nobody's child. -/
theorem refill (capped : tree.PeaksCapped) {after : Tree} {id : NodeId} {kind : NodeKind}
    {content : Option Node} (refilled : tree.nodes.Refilled after.nodes id kind content)
    (sound : after.WellFormed) : after.PeaksCapped := by
  intro other node sla upper parent found bound carried under located
  rcases sound.exists_parent found bound under with ⟨-, held, there, taken, -⟩
  rw [located, Option.some.injEq] at there
  subst there
  apply capped other node sla upper parent
  · exact (refilled.configured bound).1 found
  · exact bound
  · exact carried
  · exact under
  · exact (refilled.configured taken).1 located

theorem commitCreate (capped : tree.PeaksCapped) (sound : tree.WellFormed) {request : Sla}
    {plan : CreatePlan} (planned : tree.planCreate request = .ok plan) :
    (tree.commitCreate plan).PeaksCapped := by
  rcases planCreate_accepted planned with ⟨node, accepted⟩
  rcases accepted.rebound sound with ⟨remainder, rebound, -⟩
  apply capped.rebind rebound
  · rintro sla upper - ⟨⟩ under
    rcases accepted.afforded upper under with ⟨parent, found, -, bound, cir_le, pir_le⟩
    refine ⟨accepted.parent_ne_node under, parent, found, ?_⟩
    -- The request's peak was compared as it came; the raised one is its committed rate, of which
    -- the parent has enough left.
    rcases sound.bound upper parent found bound with ⟨agreement, carried, carries⟩
    have left := sound.balanced upper parent found bound
    have rates := carries.cir_le_pir
    have peak_eq := carries.peak_eq
    simp only [Node.cir, carried] at left
    rw [accepted.sla_pir]
    omega
  · intro other child sla found bound _ under
    exact absurd under (sound.childless_of_vacant accepted.found accepted.vacant other child found
      bound)

theorem commitDelete (capped : tree.PeaksCapped) (sound : tree.WellFormed) {id : NodeId}
    {plan : DeletePlan} (planned : tree.planDelete id = .ok plan) :
    (tree.commitDelete plan).PeaksCapped := by
  rcases planDelete_accepted planned with ⟨node, accepted⟩
  rcases accepted.rebound sound with ⟨remainder, rebound, -⟩
  apply capped.rebind rebound
  · intro sla upper bound
    contradiction
  · intro other child sla found bound _ under
    exact absurd under (accepted.nothing_below sound found bound)

/-- An accepted update keeps its node within the peak of its parent; whether the node's children are
still within its own is for the request to see to. -/
theorem commitUpdate_iff (capped : tree.PeaksCapped) (sound : tree.WellFormed) {request : Sla}
    {plan : UpdatePlan} (planned : tree.planUpdate request = .ok plan) :
    (tree.commitUpdate plan).PeaksCapped ↔ tree.SparesChildren request := by
  rcases planUpdate_accepted planned with ⟨node, accepted⟩
  rcases accepted.rebound sound with ⟨remainder, rebound, -⟩
  have new_peak : (plan.renewed node).peak = max request.cir request.pir := accepted.sla_pir
  constructor
  · intro after_capped other child sla found bound carried under
    have different : other ≠ request.id := by
      rintro rfl
      exact (sound.exists_parent found bound under).1 rfl
    rw [← accepted.id_eq] at different under
    rw [← new_peak]
    exact after_capped other _ sla plan.id _ (rebound.find?_other different found) bound carried
      under rebound.is
  · intro spared
    apply capped.rebind rebound
    · rintro sla upper - ⟨⟩ under
      rcases accepted.target with same | ⟨cluster, -, -, -, moved, -, parent, found, -, -, -, within⟩
      · have was : node.parent = some upper := same.symm.trans under
        rcases accepted.afforded upper under was with ⟨parent, found, -, within⟩
        exact ⟨(sound.exists_parent accepted.found accepted.bound was).1, parent, found, within⟩
      · have same : cluster = upper := Option.some.inj (moved.symm.trans under)
        subst same
        have committed := sound.commitUpdate planned
        exact ⟨(committed.exists_parent rebound.is accepted.bound under).1, parent, found, within⟩
    · intro other child sla found bound carried under
      rw [accepted.id_eq] at under
      rw [new_peak]
      exact spared other child sla found bound carried under

end PeaksCapped

end Tree

namespace Limiter

variable {δ : Type} [RegisterAccess δ] [BlockMemory δ] [AdminTransport δ] {limiter : Limiter δ}

theorem Call.peaksCapped_leaves {call : Call} (admissible : call.Admissible)
    (keeps : call.KeepsRates) (sound : limiter.tree.WellFormed)
    (capped : limiter.tree.PeaksCapped) : (call.leaves limiter).tree.PeaksCapped := by
  cases call with
  | createNode kind service =>
      apply onTree_keeps capped
      intro id tree made
      rcases Tree.createNode_eq_ok sound made with ⟨-, -, -, refilled, -⟩
      exact capped.refill refilled (sound.createNode made)
  | removeNode id kind =>
      apply onTree_keeps capped
      intro _ tree removed
      rcases Outcome.map_eq_ok.1 removed with ⟨rest, removed, rest_eq⟩
      cases rest_eq
      rcases Tree.removeNode_eq_ok removed with ⟨_, _, -, refilled, -⟩
      exact capped.refill refilled (sound.removeNode admissible.1 admissible.2 removed)
  | createSla request =>
      exact carryOut_keeps capped fun plan planned => capped.commitCreate sound planned
  | updateSla request => exact keeps.elim
  | deleteSla id =>
      exact carryOut_keeps capped fun plan planned => capped.commitDelete sound planned

theorem peaksCapped_of_steps {after : Limiter δ}
    (steps : Steps (fun _ call => call.KeepsRates) limiter after)
    (sound : limiter.tree.WellFormed) (capped : limiter.tree.PeaksCapped) :
    after.tree.PeaksCapped := by
  have both : after.tree.WellFormed ∧ after.tree.PeaksCapped := by
    induction steps with
    | refl => exact ⟨sound, capped⟩
    | tail _ step ih =>
        rcases ih with ⟨between, between_capped⟩
        rcases step with ⟨call, admissible, keeps, rfl⟩
        exact ⟨call.wellFormed_leaves admissible between,
          call.peaksCapped_leaves admissible keeps between between_capped⟩
  exact both.2

/-- Whether an operation, if it is an update that succeeds, leaves its node a peak rate that is enough
for the node's children. -/
def Operation.Spares (operation : Operation) (limiter : Limiter δ) : Prop :=
  ∀ request, operation = .updateSla request → (Limiter.updateSla request limiter).1 = .ok () →
    limiter.tree.SparesChildren request

theorem peaksCapped_updateSla_iff (sound : limiter.tree.WellFormed)
    (capped : limiter.tree.PeaksCapped) (request : Sla) :
    (updateSla request limiter).2.tree.PeaksCapped ↔
      ((updateSla request limiter).1 = .ok () → limiter.tree.SparesChildren request) := by
  have ended := carryOut_cases (fun tree => tree.planUpdate request) applyUpdate Tree.commitUpdate
    (fun _ => ()) limiter
  rw [updateSla]
  generalize carryOut (fun tree => tree.planUpdate request) applyUpdate Tree.commitUpdate
    (fun _ => ()) limiter = finished at ended ⊢
  cases ended with
  | refused planned => simp [capped]
  | failed planned applied => simp [capped]
  | done planned applied => simp [capped.commitUpdate_iff sound planned]

theorem peaksCapped_run_iff (sound : limiter.tree.WellFormed) (capped : limiter.tree.PeaksCapped)
    (operation : Operation) :
    (operation.run limiter).2.tree.PeaksCapped ↔ operation.Spares limiter := by
  by_cases update : ∃ request, operation = .updateSla request
  · rcases update with ⟨request, rfl⟩
    rw [Operation.run_updateSla]
    apply (peaksCapped_updateSla_iff sound capped request).trans
    constructor
    · rintro spares _ ⟨⟩
      exact spares
    · intro spares
      exact spares request rfl
  · constructor
    · rintro - request rfl
      exact absurd ⟨request, rfl⟩ update
    · intro _
      apply peaksCapped_of_steps _ sound capped
      apply (MadeOf.run operation limiter).mono
      rintro _ (_ | _ | _ | request | _) only <;> try trivial
      exact absurd ⟨request, only request rfl⟩ update

variable {profile : Profile} {config : DeviceConfig} {initial : δ → Prop} {moves : δ → δ → Prop}

theorem peaksCapped_of_start {device after : δ} {tree : Tree}
    (up : start profile config device = (.ok tree, after)) : tree.PeaksCapped := by
  simp only [start] at up
  split at up
  · cases up
  · next bare ready prepared =>
    rcases prepare_eq_ok.1 prepared with ⟨profile_valid, config_valid, made, -⟩
    have reached := MadeOf.bootstrap.undoOnError MadeOf.tearDown ⟨bare, ready⟩
    have capped : bare.PeaksCapped := by
      intro id node _ _ _ found bound
      rw [vacant_rootsOnly made found] at bound
      contradiction
    split at up
    · next limiter finished =>
      rw [finished] at reached
      cases up
      exact peaksCapped_of_steps reached (wellFormed_rootsOnly profile_valid config_valid made) capped
    · cases up

/-- The limiters of the runs in which no update leaves a node a lower peak rate than one of its
children has. -/
inductive SparinglyReachable (profile : Profile) (config : DeviceConfig) (initial : δ → Prop)
    (moves : δ → δ → Prop) : Limiter δ → Prop where
  | started {device after : δ} {tree : Tree} (clean : initial device)
      (up : start profile config device = (.ok tree, after)) :
      SparinglyReachable profile config initial moves ⟨tree, after⟩
  | performed {limiter : Limiter δ} (operation : Operation) (spares : operation.Spares limiter)
      (before : SparinglyReachable profile config initial moves limiter) :
      SparinglyReachable profile config initial moves (operation.run limiter).2
  | moved {limiter : Limiter δ} {device : δ}
      (before : SparinglyReachable profile config initial moves limiter)
      (move : moves limiter.device device) :
      SparinglyReachable profile config initial moves ⟨limiter.tree, device⟩

theorem SparinglyReachable.reachable
    (reached : SparinglyReachable profile config initial moves limiter) :
    Reachable profile config initial moves limiter := by
  induction reached with
  | started clean up => exact .started clean up
  | performed operation _ _ ih => exact .performed operation ih
  | moved _ move ih => exact .moved ih move

theorem SparinglyReachable.peaksCapped
    (reached : SparinglyReachable profile config initial moves limiter) :
    limiter.tree.PeaksCapped := by
  induction reached with
  | started clean up => exact peaksCapped_of_start up
  | performed operation spares before ih =>
      exact (peaksCapped_run_iff before.reachable.wellFormed ih operation).2 spares
  | moved _ _ ih => exact ih

/-- Peaks stay capped in the runs whose updates spare the children of their nodes. In any run whatever,
an operation on a tree with capped peaks leaves them capped exactly if it spares the children of its
node. -/
theorem peaks_capped_while_spared (profile : Profile) (config : DeviceConfig) (initial : δ → Prop)
    (moves : δ → δ → Prop) :
    (∀ limiter, SparinglyReachable profile config initial moves limiter →
      limiter.tree.PeaksCapped) ∧
    ∀ limiter, Reachable profile config initial moves limiter → limiter.tree.PeaksCapped →
      ∀ operation : Operation,
        (operation.run limiter).2.tree.PeaksCapped ↔ operation.Spares limiter := by
  constructor
  · intro limiter reached
    exact reached.peaksCapped
  · intro limiter reached capped operation
    exact peaksCapped_run_iff reached.wellFormed capped operation

/-- Gives the first cluster a peak rate of 1000, and as much to promise. -/
def lowerCluster : Operation := .updateSla (.update (.ofSlot .cluster 0) 1000 1000 none)

/-- Whether the first leaf lies under the first cluster and has a higher peak rate. -/
def leafAboveCluster (tree : Tree) : Bool :=
  (tree.nodes.find? firstLeaf.node).any fun leaf =>
    (tree.nodes.find? (.ofSlot .cluster 0)).any fun cluster =>
      leaf.configured && leaf.parent == some (.ofSlot .cluster 0) &&
        leaf.sla.any fun sla => cluster.peak < sla.pir

theorem not_peaksCapped_of_leafAboveCluster {tree : Tree} (seen : leafAboveCluster tree = true) :
    ¬tree.PeaksCapped := by
  intro capped
  simp only [leafAboveCluster, Option.any_eq_true, Bool.and_eq_true, beq_iff_eq,
    decide_eq_true_eq] at seen
  rcases seen with ⟨leaf, found, cluster, located, ⟨bound, under⟩, sla, carried, above⟩
  have within := capped _ leaf sla _ cluster found bound carried under located
  omega

/-- There is a run that spares all children so far, and in which the update of a cluster leaves a leaf
with a higher peak rate than its cluster. -/
theorem exists_lowered :
    ∃ limiter : Limiter Bench,
      SparinglyReachable Profile.gen4 smallConfig (Eq Bench.fresh) (fun _ _ => False) limiter ∧
      ¬(lowerCluster.run limiter).2.tree.PeaksCapped := by
  have passed : comesUp (fun limiter =>
      leafAboveCluster (lowerCluster.run (withFirstLeaf limiter)).2.tree) = true := by
    decide +kernel
  rcases exists_start passed with ⟨tree, bench, up, seen⟩
  refine ⟨withFirstLeaf ⟨tree, bench⟩, ?_, not_peaksCapped_of_leafAboveCluster seen⟩
  apply SparinglyReachable.performed _ _ (.started rfl up)
  rintro _ ⟨⟩

theorem peaks_capped_while_spared_on_bench :
    ∃ limiter : Limiter Bench,
      SparinglyReachable Profile.gen4 smallConfig (Eq Bench.fresh) (fun _ _ => False) limiter ∧
      limiter.tree.PeaksCapped ∧ ¬lowerCluster.Spares limiter := by
  rcases exists_lowered with ⟨limiter, reached, lowered⟩
  rcases peaks_capped_while_spared Profile.gen4 smallConfig (Eq Bench.fresh) (fun _ _ => False) with
    ⟨capped, kept⟩
  refine ⟨limiter, reached, capped _ reached, ?_⟩
  rwa [← kept _ reached.reachable (capped _ reached)]

/-- Peaks are not capped in every run. -/
theorem peaks_not_always_capped :
    ¬∀ limiter : Limiter Bench,
      Reachable Profile.gen4 smallConfig (Eq Bench.fresh) (fun _ _ => False) limiter →
      limiter.tree.PeaksCapped := by
  intro always
  rcases exists_lowered with ⟨limiter, reached, lowered⟩
  exact lowered (always _ (.performed lowerCluster reached.reachable))

end Limiter

end RateTree
