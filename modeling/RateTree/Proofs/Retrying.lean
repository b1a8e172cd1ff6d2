import RateTree.Proofs.PlanErrors
import RateTree.Proofs.Readiness

/-!
# Retrying

An operation that failed on the way to the firmware left the tree as it was, so the same request is
accepted by the same plan again. Whether a working firmware then carries the command out depends on
its own entry for the node: an agreement is added only where there is no entry, and deleted only
where there is one. A retry therefore succeeds if the failed request had not been carried out, and
not if it had been and only its response was lost.
-/

namespace RateTree

namespace Limiter

open Bench (Direct Ready)

variable {tree : Tree} {bench : Bench}

/-- An operation that fails with an error of the transport was planned, and left the tree alone. -/
theorem planned_of_transport_error {δ α π : Type} {plan : Tree → Outcome π} {apply : π → Action δ Unit}
    {commit : Tree → π → Tree} {result : π → α} {limiter : Limiter δ} {cause : Error}
    (avoids : Outcome.Avoids Failure.OfTransport (plan limiter.tree))
    (failed : (carryOut plan apply commit result limiter).1 = .error (.error cause))
    (carrier : cause.category = .adminTransport) :
    (∃ accepted, plan limiter.tree = .ok accepted) ∧
      (carryOut plan apply commit result limiter).2.tree = limiter.tree := by
  have ended := carryOut_cases plan apply commit result limiter
  generalize carryOut plan apply commit result limiter = finished at ended failed ⊢
  cases ended with
  | refused planned =>
      cases failed
      exact absurd carrier (avoids _ planned)
  | failed planned applied => exact ⟨⟨_, planned⟩, rfl⟩
  | done planned applied => cases failed

/-- Whether a call failed for the transport, and a bench is ready for another try: it has the entries
that the failed call left in the firmware, and nothing befalls its requests any more. -/
structure Retriable {α : Type} (call : Action (Limiter Bench) α) (limiter : Limiter Bench)
    (bench : Bench) : Prop extends Ready bench where
  failed : ∃ cause : Error, (call limiter).1 = .error (.error cause) ∧
    cause.category = .adminTransport
  entries_eq : bench.firmware.configured = (call limiter).2.device.firmware.configured

/-- How the second try of a call that failed ends. -/
def retry {α : Type} (call : Action (Limiter Bench) α) (limiter : Limiter Bench) (bench : Bench) :
    Outcome α :=
  (call ⟨(call limiter).2.tree, bench⟩).1

namespace Retriable

variable {limiter : Limiter Bench} {request : Sla} {id : NodeId}
  {entries : List ((UInt8 × UInt32) × SlaParameters)}

theorem planned_create (retriable : Retriable (createSla request) limiter bench) :
    (∃ plan, limiter.tree.planCreate request = .ok plan) ∧
      (createSla request limiter).2.tree = limiter.tree := by
  rcases retriable.failed with ⟨cause, failed, carrier⟩
  exact planned_of_transport_error (limiter.tree.planCreate_avoids_transport request) failed carrier

theorem planned_delete (retriable : Retriable (deleteSla id) limiter bench) :
    (∃ plan, limiter.tree.planDelete id = .ok plan) ∧
      (deleteSla id limiter).2.tree = limiter.tree := by
  rcases retriable.failed with ⟨cause, failed, carrier⟩
  exact planned_of_transport_error (limiter.tree.planDelete_avoids_transport id) failed carrier

theorem createSla_iff (sound : limiter.tree.WellFormed)
    (retriable : Retriable (createSla request) limiter bench) :
    retry (createSla request) limiter bench = .ok request.node ↔
      bench.firmware.configured.lookup request.node.entryKey = none := by
  rcases retriable.planned_create with ⟨⟨plan, planned⟩, tree_eq⟩
  rw [retry, tree_eq]
  exact createSla_of_ready sound retriable.toReady planned

theorem deleteSla_iff (sound : limiter.tree.WellFormed)
    (retriable : Retriable (deleteSla id) limiter bench) :
    retry (deleteSla id) limiter bench = .ok () ↔
      (bench.firmware.configured.lookup id.entryKey).isSome = true := by
  rcases retriable.planned_delete with ⟨⟨plan, planned⟩, tree_eq⟩
  rw [retry, tree_eq]
  exact deleteSla_of_ready sound retriable.toReady planned

/-- Entries that describe the tree have none for the node that was asked for. -/
theorem lookup_create (sound : limiter.tree.WellFormed)
    (retriable : Retriable (createSla request) limiter bench)
    (described : limiter.tree.DescribedBy entries) :
    entries.lookup request.node.entryKey = none := by
  rcases retriable.planned_create with ⟨⟨plan, planned⟩, -⟩
  rcases Tree.planCreate_accepted planned with ⟨node, accepted⟩
  exact described.lookup_of_vacant sound accepted.found accepted.vacant

theorem lookup_delete (sound : limiter.tree.WellFormed)
    (retriable : Retriable (deleteSla id) limiter bench)
    (described : limiter.tree.DescribedBy entries) :
    (entries.lookup id.entryKey).isSome = true := by
  rcases retriable.planned_delete with ⟨⟨plan, planned⟩, -⟩
  rcases Tree.planDelete_accepted planned with ⟨node, accepted⟩
  exact described.lookup_of_configured sound accepted.found accepted.bound

theorem described {α : Type} {call : Action (Limiter Bench) α}
    (retriable : Retriable call limiter bench) (tree_eq : (call limiter).2.tree = limiter.tree)
    (agrees : Agrees (call limiter).2.tree (call limiter).2.device) :
    limiter.tree.DescribedBy bench.firmware.configured := by
  rw [← tree_eq, retriable.entries_eq]
  exact agrees.described

end Retriable

/-- A call that failed for the transport succeeds on the second try exactly if the firmware has not
carried it out on the first: if it has no entry for a node that is asked for, and has one for a node
whose agreement is to go. It does so if it described the tree before the first try and kept its entry
for the node as it was; on a bench within direct reach it always does. -/
theorem retries_fail_once_carried_out (profile : Profile) (config : DeviceConfig)
    (initial : Bench → Prop) (moves : Bench → Bench → Prop) :
    (∀ limiter, Reachable profile config initial moves limiter →
      (∀ request bench, Retriable (createSla request) limiter bench →
        (retry (createSla request) limiter bench = .ok request.node ↔
          bench.firmware.configured.lookup request.node.entryKey = none) ∧
        (limiter.tree.DescribedBy limiter.device.firmware.configured →
          bench.firmware.configured.lookup request.node.entryKey =
            limiter.device.firmware.configured.lookup request.node.entryKey →
          retry (createSla request) limiter bench = .ok request.node)) ∧
      ∀ id bench, Retriable (deleteSla id) limiter bench →
        (retry (deleteSla id) limiter bench = .ok () ↔
          (bench.firmware.configured.lookup id.entryKey).isSome = true) ∧
        (limiter.tree.DescribedBy limiter.device.firmware.configured →
          bench.firmware.configured.lookup id.entryKey =
            limiter.device.firmware.configured.lookup id.entryKey →
          retry (deleteSla id) limiter bench = .ok ())) ∧
    ∀ limiter, Reachable profile config Direct Injects limiter →
      (∀ request bench, Retriable (createSla request) limiter bench →
        retry (createSla request) limiter bench = .ok request.node) ∧
      ∀ id bench, Retriable (deleteSla id) limiter bench →
        retry (deleteSla id) limiter bench = .ok () := by
  constructor
  · intro limiter reached
    have sound := reached.wellFormed
    constructor
    · intro request bench retriable
      refine ⟨retriable.createSla_iff sound, ?_⟩
      intro described kept
      apply (retriable.createSla_iff sound).2
      exact kept.trans (retriable.lookup_create sound described)
    · intro id bench retriable
      refine ⟨retriable.deleteSla_iff sound, ?_⟩
      intro described kept
      apply (retriable.deleteSla_iff sound).2
      rw [kept]
      exact retriable.lookup_delete sound described
  · intro limiter reached
    have sound := reached.wellFormed
    have agrees (call : Call) := unbroken_agrees.call call sound reached.agrees_always
    constructor
    · intro request bench retriable
      apply (retriable.createSla_iff sound).2
      apply retriable.lookup_create sound
      exact retriable.described retriable.planned_create.2 (agrees (.createSla request))
    · intro id bench retriable
      apply (retriable.deleteSla_iff sound).2
      apply retriable.lookup_delete sound
      exact retriable.described retriable.planned_delete.2 (agrees (.deleteSla id))

/-- A move of a bench that tampers with some requests. -/
def Tampers (before after : Bench) : Prop := ∃ faults, after = { before with faults }

/-- A bench whose next request meets a fault. -/
def meeting (fault : LinkFault) (bench : Bench) : Bench :=
  { bench with faults := [(bench.sent + 1, fault)] }

/-- A bench whose firmware refuses the next request. -/
def refusingNext (bench : Bench) : Bench :=
  { bench with firmware := { bench.firmware with failNext := 0, rejectNext := 1 } }

/-- What a call leaves of the bench, with nothing to befall further requests. -/
def calmed {α : Type} (call : Action (Limiter Bench) α) (limiter : Limiter Bench) : Bench :=
  { (call limiter).2.device with faults := [] }

/-- If a call is made on a disturbed bench, right away or after the first leaf was asked for, and both
tries end as in the premise, there is a run in which they do. -/
theorem exists_retriable {α : Type} [DecidableEq α] {initial : Bench → Prop}
    {moves : Bench → Bench → Prop} (call : Action (Limiter Bench) α) (late : Bool)
    (disturb : Bench → Bench) (cause : Error) (result : Outcome α) (clean : initial Bench.fresh)
    (moved : ∀ bench, moves bench (disturb bench)) (carrier : cause.category = .adminTransport)
    (passed : comesUp (fun limiter =>
      let ready := if late then withFirstLeaf limiter else limiter
      let before := { ready with device := disturb ready.device }
      decide ((call before).1 = .error (.error cause) ∧ Ready (calmed call before) ∧
        retry call before (calmed call before) = result)) = true) :
    ∃ limiter : Limiter Bench, Reachable Profile.gen4 smallConfig initial moves limiter ∧
      Retriable call limiter (calmed call limiter) ∧
      retry call limiter (calmed call limiter) = result := by
  rcases exists_start passed with ⟨tree, bench, up, outcome⟩
  simp only [decide_eq_true_eq] at outcome
  rcases outcome with ⟨failed, ready, retried⟩
  refine ⟨_, .moved ?_ (moved _), ⟨ready, ⟨cause, failed, carrier⟩, rfl⟩, retried⟩
  cases late with
  | false => exact .started clean up
  | true => exact .performed (.createSla firstLeaf) (.started clean up)

/-- There are runs in which the first leaf is refused, and asked for again with success, and in which
its agreement is not deleted at first, and then is. -/
theorem retries_fail_once_carried_out_on_bench :
    (∃ limiter : Limiter Bench, ∃ bench,
      Reachable Profile.gen4 smallConfig Direct Injects limiter ∧
      Retriable (createSla firstLeaf) limiter bench ∧
      bench.firmware.configured.lookup firstLeaf.node.entryKey = none ∧
      retry (createSla firstLeaf) limiter bench = .ok firstLeaf.node) ∧
    ∃ limiter : Limiter Bench, ∃ bench,
      Reachable Profile.gen4 smallConfig Direct Injects limiter ∧
      Retriable (deleteSla firstLeaf.node) limiter bench ∧
      (bench.firmware.configured.lookup firstLeaf.node.entryKey).isSome = true ∧
      retry (deleteSla firstLeaf.node) limiter bench = .ok () := by
  have clean : Direct Bench.fresh := ⟨rfl, rfl, rfl⟩
  have moved (bench : Bench) : Injects bench (refusingNext bench) := ⟨0, 1, rfl⟩
  rcases retries_fail_once_carried_out Profile.gen4 smallConfig Direct Injects with
    ⟨faulty, direct⟩
  constructor
  · rcases exists_retriable (createSla firstLeaf) false refusingNext (.admin .add (.status 1))
      (.ok firstLeaf.node) clean moved rfl (by decide +kernel) with ⟨limiter, reached, retriable, -⟩
    have again := (direct limiter reached).1 _ _ retriable
    exact ⟨limiter, _, reached, retriable, (((faulty limiter reached).1 _ _ retriable).1).1 again,
      again⟩
  · rcases exists_retriable (deleteSla firstLeaf.node) true refusingNext (.admin .delete (.status 1))
      (.ok ()) clean moved rfl (by decide +kernel) with ⟨limiter, reached, retriable, -⟩
    have again := (direct limiter reached).2 _ _ retriable
    exact ⟨limiter, _, reached, retriable, (((faulty limiter reached).2 _ _ retriable).1).1 again,
      again⟩

/-- Not every second try succeeds: the first leaf is refused once the response to its first
request was lost. -/
theorem not_always_retried :
    ¬∀ limiter : Limiter Bench,
      Reachable Profile.gen4 smallConfig (Eq Bench.fresh) Tampers limiter →
      ∀ request bench, Retriable (createSla request) limiter bench →
        retry (createSla request) limiter bench = .ok request.node := by
  intro always
  have moved (bench : Bench) : Tampers bench (meeting .responseLost bench) := ⟨_, rfl⟩
  rcases exists_retriable (createSla firstLeaf) false (meeting .responseLost) (.timeout 9)
    (.error (.error (.admin .add (.status 1)))) rfl moved rfl (by decide +kernel) with
    ⟨limiter, reached, retriable, again⟩
  rw [always limiter reached _ _ retriable] at again
  cases again

end Limiter

end RateTree
