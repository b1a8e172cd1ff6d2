import RateTree.Proofs.Invariant
import RateTree.Proofs.LinkedDevice
import RateTree.Proofs.Owners

/-!
# Agreement of tree and device

A relation between trees and devices that only depends on what the configured nodes own holds at all
times of a run, if it holds of the prepared limiter and applying a plan takes it from the tree to the
tree that is committed, or back to the tree when the device refuses. It need not hold once a fault has
cut short the work on the device, unless it is also known to survive such faults.
-/

namespace RateTree

namespace Limiter

variable {δ α π : Type} [DeviceView δ]

/-- Applying an accepted plan keeps a relation of tree and device: with the committed tree when it is
done, and with the tree as it is when it is refused. -/
def Applies (holds : Tree → δ → Prop) (tree committed : Tree) (apply : Action δ Unit) (device : δ) :
    Prop :=
  Action.Ensures intact apply device (fun _ after => holds tree device → holds committed after)
    fun after => holds tree device → holds tree after

theorem carryOut_holds {holds : Tree → δ → Prop} {plan : Tree → Outcome π}
    {apply : π → Action δ Unit} {commit : Tree → π → Tree} {result : π → α} {limiter : Limiter δ}
    (before : intact limiter.device → holds limiter.tree limiter.device)
    (applies : ∀ accepted, plan limiter.tree = .ok accepted →
      Applies holds limiter.tree (commit limiter.tree accepted) (apply accepted) limiter.device)
    (still : intact (carryOut plan apply commit result limiter).2.device) :
    holds (carryOut plan apply commit result limiter).2.tree
      (carryOut plan apply commit result limiter).2.device := by
  have ended := carryOut_cases plan apply commit result limiter
  generalize carryOut plan apply commit result limiter = finished at ended still ⊢
  cases ended with
  | refused planned => exact before still
  | @failed accepted failure device planned run =>
      cases failure with
      | error cause =>
          rcases (applies _ planned).of_error run with ⟨was_intact, kept⟩
          exact kept (before (was_intact still))
      | fault cause => exact absurd still ((applies _ planned).of_fault run)
  | done planned run =>
      rcases (applies _ planned).of_ok run with ⟨was_intact, committed⟩
      exact committed (before (was_intact still))

/-- Besides, a relation that also survives the faults of the device holds whatever comes. -/
theorem carryOut_holds_always {holds : Tree → δ → Prop} {plan : Tree → Outcome π}
    {apply : π → Action δ Unit} {commit : Tree → π → Tree} {result : π → α} {limiter : Limiter δ}
    (before : holds limiter.tree limiter.device)
    (applies : ∀ accepted, plan limiter.tree = .ok accepted →
      Applies holds limiter.tree (commit limiter.tree accepted) (apply accepted) limiter.device)
    (survives : ∀ accepted cause after, plan limiter.tree = .ok accepted →
      apply accepted limiter.device = (.error (.fault cause), after) → holds limiter.tree after) :
    holds (carryOut plan apply commit result limiter).2.tree
      (carryOut plan apply commit result limiter).2.device := by
  have ended := carryOut_cases plan apply commit result limiter
  generalize carryOut plan apply commit result limiter = finished at ended ⊢
  cases ended with
  | refused planned => exact before
  | @failed accepted failure device planned run =>
      cases failure with
      | error cause => exact ((applies _ planned).of_error run).2 before
      | fault cause => exact survives _ cause device planned run
  | done planned run => exact ((applies _ planned).of_ok run).2 before

omit [DeviceView δ] in
theorem onTree_device {change : Tree → Except Error (α × Tree)} {limiter : Limiter δ} :
    (onTree change limiter).2.device = limiter.device := by
  simp only [onTree]
  split <;> rfl

omit [DeviceView δ] in
theorem onTree_holds {holds : Tree → δ → Prop} {change : Tree → Except Error (α × Tree)}
    {limiter : Limiter δ} (before : holds limiter.tree limiter.device)
    (changed : ∀ value tree, change limiter.tree = .ok (value, tree) → holds tree limiter.device) :
    holds (onTree change limiter).2.tree (onTree change limiter).2.device := by
  simp only [onTree]
  split
  · next value tree made => exact changed value tree made
  · exact before

variable [RegisterAccess δ] [BlockMemory δ] [AdminTransport δ]

/-- What makes a relation of trees and devices last. -/
structure Lasting (holds : Tree → δ → Prop) : Prop where
  same_owners : ∀ (tree next : Tree) device, next.profile = tree.profile →
    (∀ id sla rings, next.Owns id sla rings ↔ tree.Owns id sla rings) →
    holds tree device → holds next device
  create : ∀ (tree : Tree) request plan device, tree.WellFormed →
    tree.planCreate request = .ok plan →
    Applies holds tree (tree.commitCreate plan) (applyCreate plan) device
  update : ∀ (tree : Tree) request plan device, tree.WellFormed →
    tree.planUpdate request = .ok plan →
    Applies holds tree (tree.commitUpdate plan) (applyUpdate plan) device
  delete : ∀ (tree : Tree) id plan device, tree.WellFormed → tree.planDelete id = .ok plan →
    Applies holds tree (tree.commitDelete plan) (applyDelete plan) device

namespace Lasting

variable {holds : Tree → δ → Prop} {limiter : Limiter δ}

theorem createNode (lasting : Lasting holds) (kind : NodeKind) (service : Service)
    (sound : limiter.tree.WellFormed) (before : holds limiter.tree limiter.device) :
    holds (Limiter.createNode kind service limiter).2.tree
      (Limiter.createNode kind service limiter).2.device := by
  apply onTree_holds before
  intro id tree made
  rcases Tree.createNode_eq_ok sound made with ⟨-, -, -, refilled, after_eq⟩
  refine lasting.same_owners _ _ _ (by rw [after_eq]) ?_ before
  intro _ _ _
  exact Tree.owns_iff_of_refilled refilled (by rw [after_eq])

theorem removeNode (lasting : Lasting holds) (id : NodeId) (kind : NodeKind)
    (before : holds limiter.tree limiter.device) :
    holds (Limiter.removeNode id kind limiter).2.tree
      (Limiter.removeNode id kind limiter).2.device := by
  apply onTree_holds before
  intro _ tree removed
  rcases Outcome.map_eq_ok.1 removed with ⟨rest, removed, rest_eq⟩
  cases rest_eq
  rcases Tree.removeNode_eq_ok removed with ⟨_, _, -, refilled, after_eq⟩
  refine lasting.same_owners _ _ _ (by rw [after_eq]) ?_ before
  intro _ _ _
  exact Tree.owns_iff_of_refilled refilled (by rw [after_eq])

theorem call (lasting : Lasting holds) (call : Call) (sound : limiter.tree.WellFormed)
    (before : intact limiter.device → holds limiter.tree limiter.device)
    (still : intact (call.leaves limiter).device) :
    holds (call.leaves limiter).tree (call.leaves limiter).device := by
  cases call with
  | createNode kind service =>
      apply lasting.createNode kind service sound
      simp only [Call.leaves, Limiter.createNode, onTree_device] at still
      exact before still
  | removeNode id kind =>
      apply lasting.removeNode id kind
      simp only [Call.leaves, Limiter.removeNode, onTree_device] at still
      exact before still
  | createSla request =>
      exact carryOut_holds before (fun plan planned => lasting.create _ _ plan _ sound planned) still
  | updateSla request =>
      exact carryOut_holds before (fun plan planned => lasting.update _ _ plan _ sound planned) still
  | deleteSla id =>
      exact carryOut_holds before (fun plan planned => lasting.delete _ _ plan _ sound planned) still

/-- A lasting relation that holds of the prepared limiter, and that the device's own moves keep, holds
at all times for as long as the device is intact. -/
theorem underway (lasting : Lasting holds) {profile : Profile} {config : DeviceConfig}
    {initial : δ → Prop} {moves : δ → δ → Prop}
    (prepared : ∀ device bare ready, initial device →
      prepare profile config device = (.ok bare, ready) → holds bare ready)
    (moved : ∀ (tree : Tree) device after, tree.WellFormed → moves device after → intact after →
      intact device ∧ (holds tree device → holds tree after))
    (underway : Underway profile config initial moves limiter) (still : intact limiter.device) :
    holds limiter.tree limiter.device := by
  have both : limiter.tree.WellFormed ∧
      (intact limiter.device → holds limiter.tree limiter.device) := by
    refine underway.keep (fun limiter => limiter.tree.WellFormed ∧
      (intact limiter.device → holds limiter.tree limiter.device)) ?_ ?_ ?_
    · intro device bare ready clean ready_eq
      rcases prepare_eq_ok.1 ready_eq with ⟨profile_valid, config_valid, made, -⟩
      exact ⟨wellFormed_rootsOnly profile_valid config_valid made,
        fun _ => prepared device bare ready clean ready_eq⟩
    · rintro limiter call admissible ⟨sound, before⟩
      exact ⟨call.wellFormed_leaves admissible sound, lasting.call call sound before⟩
    · rintro limiter device move ⟨sound, before⟩
      refine ⟨sound, ?_⟩
      intro still
      rcases moved limiter.tree limiter.device device sound move still with ⟨was_intact, kept⟩
      exact kept (before was_intact)
  exact both.2 still

end Lasting

/-- What makes a relation last through faults as well. -/
structure Unbroken (holds : Tree → δ → Prop) : Prop extends Lasting holds where
  create_fault : ∀ (tree : Tree) request plan device cause after, tree.WellFormed →
    tree.planCreate request = .ok plan → holds tree device →
    applyCreate plan device = (.error (.fault cause), after) → holds tree after
  update_fault : ∀ (tree : Tree) request plan device cause after, tree.WellFormed →
    tree.planUpdate request = .ok plan → holds tree device →
    applyUpdate plan device = (.error (.fault cause), after) → holds tree after
  delete_fault : ∀ (tree : Tree) id plan device cause after, tree.WellFormed →
    tree.planDelete id = .ok plan → holds tree device →
    applyDelete plan device = (.error (.fault cause), after) → holds tree after

namespace Unbroken

variable {holds : Tree → δ → Prop} {limiter : Limiter δ}

theorem call (unbroken : Unbroken holds) (call : Call) (sound : limiter.tree.WellFormed)
    (before : holds limiter.tree limiter.device) :
    holds (call.leaves limiter).tree (call.leaves limiter).device := by
  have lasting := unbroken.toLasting
  cases call with
  | createNode kind service => exact lasting.createNode kind service sound before
  | removeNode id kind => exact lasting.removeNode id kind before
  | createSla request =>
      apply carryOut_holds_always before
      · exact fun plan planned => lasting.create _ _ plan _ sound planned
      · exact fun plan cause after planned =>
          unbroken.create_fault _ request plan _ cause after sound planned before
  | updateSla request =>
      apply carryOut_holds_always before
      · exact fun plan planned => lasting.update _ _ plan _ sound planned
      · exact fun plan cause after planned =>
          unbroken.update_fault _ request plan _ cause after sound planned before
  | deleteSla id =>
      apply carryOut_holds_always before
      · exact fun plan planned => lasting.delete _ _ plan _ sound planned
      · exact fun plan cause after planned =>
          unbroken.delete_fault _ id plan _ cause after sound planned before

/-- An unbroken relation that holds of the prepared limiter, and that the device's own moves keep,
holds at all times. -/
theorem underway (unbroken : Unbroken holds) {profile : Profile} {config : DeviceConfig}
    {initial : δ → Prop} {moves : δ → δ → Prop}
    (prepared : ∀ device bare ready, initial device →
      prepare profile config device = (.ok bare, ready) → holds bare ready)
    (moved : ∀ (tree : Tree) device after, moves device after → holds tree device →
      holds tree after)
    (underway : Underway profile config initial moves limiter) :
    holds limiter.tree limiter.device := by
  have both : limiter.tree.WellFormed ∧ holds limiter.tree limiter.device := by
    refine underway.keep (fun limiter => limiter.tree.WellFormed ∧
      holds limiter.tree limiter.device) ?_ ?_ ?_
    · intro device bare ready clean ready_eq
      rcases prepare_eq_ok.1 ready_eq with ⟨profile_valid, config_valid, made, -⟩
      exact ⟨wellFormed_rootsOnly profile_valid config_valid made,
        prepared device bare ready clean ready_eq⟩
    · rintro limiter call admissible ⟨sound, before⟩
      exact ⟨call.wellFormed_leaves admissible sound, unbroken.call call sound before⟩
    · rintro limiter device move ⟨sound, before⟩
      exact ⟨sound, moved limiter.tree limiter.device device move before⟩
  exact both.2

end Unbroken

end Limiter

end RateTree
