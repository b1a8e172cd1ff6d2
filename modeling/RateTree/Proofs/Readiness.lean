import RateTree.Proofs.FirmwareAgreement

/-!
# Benches that answer

A bench whose firmware is up, whose requests meet nothing any more and whose addresses have not run out
carries out every command that the entries of the firmware allow, and answers the next one too as long
as there are addresses. An accepted plan is therefore applied exactly if the firmware has no entry yet
for a new agreement, and has one for an agreement that is changed or taken away.
-/

namespace RateTree

open Firmware (Reprogrammed)

namespace Firmware

/-- Whether a firmware is up and answers the next request as it should. -/
structure Ready (firmware : Firmware) : Prop where
  initialised : firmware.initialised = true
  no_failures : firmware.failNext = 0
  no_rejections : firmware.rejectNext = 0

/-- Whether the entries of a firmware allow a command on a key. -/
def Accepts (firmware : Firmware) (key : UInt8 × UInt32) : AdminCommand → Prop
  | .init => True
  | .add => firmware.configured.lookup key = none
  | .update | .delete => (firmware.configured.lookup key).isSome = true

variable {firmware : Firmware} {request : AdminRequest} {given : Option SlaParameters}

theorem execute_of_accepts (up : firmware.initialised = true)
    (accepts : firmware.Accepts (request.nodeTag, request.nodeIndex) request.command) :
    (firmware.execute request given).1 = 0 := by
  rcases request with ⟨command, blockSize, block, nodeTag, service, ringCount, nodeIndex⟩
  cases command with
  | init => rfl
  | add =>
      simp only [Accepts] at accepts
      simp [execute, up, accepts]
  | update | delete =>
      rcases Option.isSome_iff_exists.1 accepts with ⟨held, found⟩
      simp [execute, up, found]

/-- Whatever is carried out leaves a ready firmware ready. -/
theorem Ready.execute (ready : firmware.Ready) : (firmware.execute request given).2.Ready := by
  rcases ready with ⟨up, failures, rejections⟩
  rcases request with ⟨command, blockSize, block, nodeTag, service, ringCount, nodeIndex⟩
  cases command with
  | init => exact ⟨rfl, failures, rejections⟩
  | add | update | delete =>
      simp only [Firmware.execute]
      split
      · exact ⟨up, failures, rejections⟩
      · exact ⟨up, failures, rejections⟩

theorem accepts_of_reprogrammed {key : UInt8 × UInt32} {parameters : SlaParameters}
    {command : AdminCommand} {updated : List ((UInt8 × UInt32) × SlaParameters)}
    (done : Reprogrammed key parameters firmware.configured command updated) :
    firmware.Accepts key command := by
  cases done with
  | init => trivial
  | add free => exact free
  | update held => exact held
  | delete held => exact held

/-- A ready firmware carries out what its entries allow. -/
theorem serve_of_ready {memory : Nat → Option (List UInt8)} (ready : firmware.Ready)
    (accepts : firmware.Accepts (request.nodeTag, request.nodeIndex) request.command)
    (read : readParameters memory request = .ok given) :
    Action.Ensures (fun _ => True) (serve memory request) firmware
      (fun response after => response = ⟨request.command.id, 0⟩ ∧ after.Ready) fun _ => False := by
  have known : (liftM (readParameters memory request) : Action Firmware _) firmware =
      (.ok given, firmware) := by
    rw [Action.liftError_apply, read]
    rfl
  apply Action.Ensures.bind_ok known fun _ => trivial
  apply (Action.Ensures.modify fun _ => trivial).bind
  rintro _ _ rfl
  rw [answer]
  apply Action.Ensures.get.bind
  rintro _ _ ⟨rfl, rfl⟩
  rw [if_neg (by simp [ready.no_failures]), if_neg (by simp [ready.no_rejections])]
  apply (Action.Ensures.modify fun _ => trivial).bind
  rintro _ _ rfl
  have recorded : Ready { firmware with history := ⟨request, given⟩ :: firmware.history } :=
    ⟨ready.initialised, ready.no_failures, ready.no_rejections⟩
  refine .pure ⟨?_, recorded.execute⟩
  exact congrArg (AdminResponse.mk request.command.id)
    (execute_of_accepts recorded.initialised accepts)

theorem receive_of_ready {memory : Nat → Option (List UInt8)} (ready : firmware.Ready)
    (accepts : firmware.Accepts (request.nodeTag, request.nodeIndex) request.command)
    (read : readParameters memory request = .ok given) :
    Action.Ensures (fun _ => True) (receive memory request.encode) firmware
      (fun response after => response = ⟨request.command.id, 0⟩ ∧ after.Ready) fun _ => False := by
  rw [receive, AdminRequest.decode_encode]
  exact serve_of_ready ready accepts read

end Firmware

namespace Bench

/-- Whether a bench is within direct reach, nothing befalls its requests, and memory and firmware are
ready for the next one. -/
structure Ready (bench : Bench) : Prop extends Direct bench where
  room : bench.pool.nextAddress < 2 ^ 64
  firmware : bench.firmware.Ready

instance (bench : Bench) : Decidable (Ready bench) :=
  decidable_of_iff ((bench.carrier = .direct ∧ bench.faults = [] ∧ bench.parameterLimit = none) ∧
      bench.pool.nextAddress < 2 ^ 64 ∧ bench.firmware.initialised = true ∧
      bench.firmware.failNext = 0 ∧ bench.firmware.rejectNext = 0)
    ⟨fun ⟨⟨carrier, faults, limit⟩, room, up, failures, rejections⟩ =>
      ⟨⟨carrier, faults, limit⟩, room, ⟨up, failures, rejections⟩⟩,
    fun ready => ⟨⟨ready.carrier_eq, ready.faults_eq, ready.limit_eq⟩, ready.room,
      ready.firmware.initialised, ready.firmware.no_failures, ready.firmware.no_rejections⟩⟩

/-- Whether the firmware of a bench is up and nothing befalls the requests to it any more. -/
structure Attentive (bench : Bench) : Prop extends Faithful bench where
  calm : ∀ entry ∈ bench.faults, entry.1 ≤ bench.sent
  firmware : bench.firmware.Ready

/-- Whether a bench carries out the next command that the entries of its firmware allow, and as many
more after it: it is attentive, and the addresses last. -/
structure Serves (bench : Bench) (more : Nat) : Prop extends Attentive bench where
  room : bench.pool.nextAddress + more * pageSize < 2 ^ 64

/-- A bench has carried out a command, for which it has used up a page of addresses. -/
structure Follows (before after : Bench) : Prop extends Attentive after where
  nextAddress_eq : after.pool.nextAddress = before.pool.nextAddress + pageSize

variable {bench : Bench} {more : Nat}

theorem Attentive.of_onlyRegisters (attentive : bench.Attentive) {after : Bench}
    (only : OnlyRegisters bench after) : after.Attentive := by
  rcases only with ⟨registers, rfl⟩
  exact ⟨attentive.toFaithful.with_state _ _ _ _, attentive.calm, attentive.firmware⟩

theorem Attentive.with_pool (attentive : bench.Attentive) (pool : Pool) :
    Attentive { bench with pool } :=
  ⟨attentive.toFaithful.with_state _ _ _ _, attentive.calm, attentive.firmware⟩

/-- A request that is sent now meets nothing. -/
theorem Attentive.unharmed (attentive : bench.Attentive) :
    currentFault? { bench with sent := bench.sent + 1 } = none := by
  simp only [currentFault?, Option.map_eq_none_iff, List.find?_eq_none, List.mem_reverse, beq_iff_eq]
  intro entry mem same
  have past := attentive.calm entry mem
  omega

theorem Ready.serves (ready : bench.Ready) : bench.Serves 0 where
  toFaithful := ready.toDirect.faithful
  calm := by simp [ready.faults_eq]
  firmware := ready.firmware
  room := by simpa using ready.room

namespace Serves

theorem address_lt (serves : bench.Serves more) : bench.pool.nextAddress < 2 ^ 64 :=
  Nat.lt_of_le_of_lt (Nat.le_add_right _ _) serves.room

theorem of_onlyRegisters (serves : bench.Serves more) {after : Bench}
    (only : OnlyRegisters bench after) : after.Serves more := by
  have still := serves.toAttentive.of_onlyRegisters only
  rcases only with ⟨registers, rfl⟩
  exact ⟨still, serves.room⟩

end Serves

namespace Follows

variable {before after last : Bench}

theorem serves (follows : Follows before after) (served : before.Serves (more + 1)) :
    after.Serves more where
  toAttentive := follows.toAttentive
  room := by
    have room := served.room
    rw [Nat.add_one_mul] at room
    rw [follows.nextAddress_eq]
    omega

theorem of_onlyRegisters (follows : Follows before after) (only : OnlyRegisters after last) :
    Follows before last := by
  have still := follows.toAttentive.of_onlyRegisters only
  rcases only with ⟨registers, rfl⟩
  exact ⟨still, follows.nextAddress_eq⟩

theorem after_onlyRegisters (follows : Follows after last) (only : OnlyRegisters before after) :
    Follows before last := by
  rcases only with ⟨registers, rfl⟩
  exact ⟨follows.toAttentive, follows.nextAddress_eq⟩

end Follows

section Requests

variable {request : AdminRequest} {given : Option SlaParameters}

theorem deliver_of_ready (direct : bench.carrier = .direct) (ready : bench.firmware.Ready)
    (accepts : bench.firmware.Accepts (request.nodeTag, request.nodeIndex) request.command)
    (read : Firmware.readParameters bench.pool.read request = .ok given) :
    Action.Ensures (fun _ => True) (deliver request) bench
      (fun response after => response = ⟨request.command.id, 0⟩ ∧
        ∃ firmware : Firmware, after = { bench with firmware } ∧ firmware.Ready) fun _ => False := by
  have delivered : deliver request bench =
      onFirmware (Firmware.receive bench.pool.read request.encode) bench := by
    rw [deliver, direct]
  rw [Action.Ensures, delivered]
  refine (onFirmware_total (Firmware.receive_of_ready ready accepts read)).weaken ?_ ?_
  · rintro response _ ⟨firmware, rfl, answered, still⟩
    exact ⟨answered, firmware, rfl, still⟩
  · rintro _ ⟨firmware, -, never⟩
    exact never

theorem roundTrip_of_attentive (attentive : bench.Attentive)
    (accepts : bench.firmware.Accepts (request.nodeTag, request.nodeIndex) request.command)
    (read : Firmware.readParameters bench.pool.read request = .ok given) :
    Action.Ensures (fun _ => True) (AdminChannel.roundTrip request) bench
      (fun _ after => after.Attentive ∧ after.pool = bench.pool) fun _ => False := by
  have sent : Action.Ensures (fun _ => True) (send request) bench
      (fun response after => response = ⟨request.command.id, 0⟩ ∧
        after.Attentive ∧ after.pool = bench.pool) fun _ => False := by
    apply (Action.Ensures.modify id).bind
    rintro _ _ rfl
    apply Action.Ensures.get.bind
    rintro _ _ ⟨rfl, rfl⟩
    rw [attentive.unharmed]
    have reached : ({ bench with sent := bench.sent + 1 } : Bench).carrier = .direct :=
      attentive.carrier_eq
    refine (deliver_of_ready reached attentive.firmware accepts read).weaken ?_ fun _ never => never
    rintro response _ ⟨answered, firmware, rfl, still⟩
    refine ⟨answered, ⟨attentive.toFaithful.with_state _ _ _ _, ?_, still⟩, rfl⟩
    intro entry mem
    exact Nat.le_succ_of_le (attentive.calm entry mem)
  apply sent.mapError.bind
  rintro _ after ⟨rfl, answered⟩
  rw [if_neg (not_not.2 rfl), if_neg (not_not.2 rfl)]
  exact .pure answered

end Requests

theorem withBlock_of_serves {α : Type} (serves : bench.Serves more) {action : Block → Action Bench α}
    (done : Bench → Prop)
    (inner : ∀ positive : 0 < parameterBlockSize,
      Action.Ensures (fun _ => True) (action ⟨bench.pool.nextAddress, parameterBlockSize⟩)
        { bench with pool := bench.pool.push parameterBlockSize positive } (fun _ => done)
        fun _ => False) :
    Action.Ensures (fun _ => True) (withBlock .parameters parameterBlockSize action) bench
      (fun _ after => ∃ last, done last ∧
        after = { last with pool := last.pool.free bench.pool.nextAddress })
      fun _ => False := by
  have lends := withBlock_lends serves.limit_eq action
  rw [Action.Ensures]
  generalize withBlock .parameters parameterBlockSize action bench = finished at lends ⊢
  cases lends with
  | exhausted cause full => exact absurd serves.address_lt (Nat.not_lt.2 full)
  | lent positive room ended =>
      rcases (inner positive).exists_ok with ⟨value, last, finished, holds⟩
      rw [finished] at ended
      cases ended
      exact ⟨id, _, holds, rfl⟩

/-- A command that the entries of the firmware allow is carried out. -/
theorem sendSla_of_serves (serves : bench.Serves more) {command : AdminCommand}
    (no_reset : command ≠ .init) {id : NodeId} {kind : NodeKind} (known : id.kind? = some kind)
    (service : Service) (tokens : Tokens) {rings : List Nat} (few : rings.length ≤ maxRings)
    (small : ∀ ring ∈ rings, ring < 2 ^ 16)
    (accepts : bench.firmware.Accepts id.entryKey command) :
    Action.Ensures (fun _ => True) (AdminChannel.sendSla command id service tokens rings) bench
      (fun _ => Follows bench) fun _ => False := by
  have listed : (liftM (AdminChannel.ringIds rings) : Action Bench _) bench =
      (.ok (rings.map Nat.toUInt16), bench) := by
    rw [Action.liftError_apply, AdminChannel.ringIds_eq_ok.2 ⟨few, small, rfl⟩]
    rfl
  have fits : (rings.map Nat.toUInt16).length ≤ maxRings := by simpa using few
  have above : 0 < bench.pool.nextAddress := by
    simp only [Pool.nextAddress, firstAddress]
    omega
  have served {pool : Pool} {bytes : List UInt8}
      (next_eq : pool.nextAddress = bench.pool.nextAddress + pageSize)
      (held : pool.read bench.pool.nextAddress = some bytes)
      (exact : bytes.length = parameterBlockSize) :
      Action.Ensures (fun _ => True)
        (AdminChannel.roundTrip (AdminChannel.slaRequest command kind id service
          (rings.map Nat.toUInt16).length bench.pool.nextAddress)) { bench with pool }
        (fun _ => Follows bench) fun _ => False := by
    rcases Firmware.exists_readParameters above serves.address_lt fits held exact command kind id
      service with ⟨given, read⟩
    refine (roundTrip_of_attentive (serves.with_pool pool) ?_ read).weaken ?_ fun _ never => never
    · rw [AdminChannel.entryKey_slaRequest known]
      exact accepts
    · rintro _ after ⟨attentive, pool_eq⟩
      exact ⟨attentive, by rw [pool_eq, next_eq]⟩
  simp only [AdminChannel.sendSla, if_neg no_reset, known]
  apply Action.Ensures.bind_ok listed fun _ => trivial
  refine (withBlock_of_serves serves (Follows bench) ?_).weaken ?_ fun _ never => never
  · intro positive
    have next_eq := bench.pool.nextAddress_push positive (by decide)
    split
    · have exact : (SlaParameters.encode ⟨tokens, rings.map Nat.toUInt16⟩).length =
          parameterBlockSize := SlaParameters.length_encode _
      apply Action.Ensures.bind_ok (fill_push exact.le) fun _ => trivial
      exact served next_eq (Pool.read_push_overwriteBlock exact) exact
    · exact served next_eq Pool.read_push (Bytes.length_zeros _)
  · rintro _ _ ⟨last, follows, rfl⟩
    exact ⟨follows.with_pool _, follows.nextAddress_eq⟩

end Bench

namespace Limiter

open Bench (Direct Ready Serves Follows OnlyRegisters)

variable {tree : Tree} {bench : Bench} {more : Nat}

/-- The firmware is told of an owner whatever it accepts for its node. -/
theorem sendSla_of_owns (sound : tree.WellFormed) (serves : bench.Serves more) {id : NodeId}
    {sla : Sla} {rings : List Nat} (owns : tree.Owns id sla rings) {command : AdminCommand}
    (no_reset : command ≠ .init) (service : Service) (tokens : Tokens)
    (accepts : bench.firmware.Accepts id.entryKey command) :
    Action.Ensures (fun _ => True) (AdminChannel.sendSla command id service tokens rings) bench
      (fun _ => Follows bench) fun _ => False := by
  rcases sound.kind?_of_owns owns with ⟨kind, known⟩
  have small := sound.small_of_owns owns
  rcases owns with ⟨_, _, _, _, rings_eq⟩
  exact Bench.sendSla_of_serves serves no_reset known service tokens (Tree.few_of_ringsOf rings_eq) small
    accepts

theorem applyCreate_of_serves (sound : tree.WellFormed) (serves : bench.Serves more) {request : Sla}
    {plan : Tree.CreatePlan} (planned : tree.planCreate request = .ok plan)
    (accepts : bench.firmware.Accepts request.node.entryKey .add) :
    Action.Ensures (fun _ => True) (applyCreate plan) bench (fun _ => Follows bench)
      fun _ => False := by
  rcases Tree.planCreate_accepted planned with ⟨node, accepted⟩
  have known : plan.sla.node.kind? = some node.kind := by
    rw [accepted.sla_node, accepted.known sound]
  rw [← accepted.sla_node] at accepts
  refine ((Bench.link_total _ _ _).weaken (fun _ _ only => only) ?_).bind ?_
  · -- Only a node without a place above it cannot be linked, and the plan has given it one.
    rintro after ⟨-, placeless⟩
    rcases placeless _ known with ⟨inner, nowhere⟩
    exact inner (accepted.root_of_parent_eq_none sound nowhere)
  · intro _ linked only
    have accepts_linked : linked.firmware.Accepts plan.sla.node.entryKey .add := by
      rcases only with ⟨registers, rfl⟩
      exact accepts
    apply Action.Ensures.undoOnError_of_never
    refine (sendSla_of_owns (sound.commitCreate planned) (serves.of_onlyRegisters only)
      (accepted.owns sound) (by decide) _ _ accepts_linked).weaken ?_ fun _ never => never
    exact fun _ after follows => follows.after_onlyRegisters only

theorem applyUpdate_of_serves (sound : tree.WellFormed) (serves : bench.Serves more) {request : Sla}
    {plan : Tree.UpdatePlan} (planned : tree.planUpdate request = .ok plan)
    (accepts : bench.firmware.Accepts request.id.entryKey .update) :
    Action.Ensures (fun _ => True) (applyUpdate plan) bench (fun _ => Follows bench)
      fun _ => False := by
  rcases Tree.planUpdate_accepted planned with ⟨node, accepted⟩
  rw [← accepted.id_eq] at accepts
  have sends {linked : Bench} (only : OnlyRegisters bench linked) :
      Action.Ensures (fun _ => True)
        (AdminChannel.sendSla .update plan.id plan.sla.service plan.tokens plan.rings) linked
        (fun _ => Follows bench) fun _ => False := by
    have accepts_linked : linked.firmware.Accepts plan.id.entryKey .update := by
      rcases only with ⟨registers, rfl⟩
      exact accepts
    refine (sendSla_of_owns sound (serves.of_onlyRegisters only) accepted.owns (by decide) _ _
      accepts_linked).weaken ?_ fun _ never => never
    exact fun _ after follows => follows.after_onlyRegisters only
  simp only [applyUpdate]
  split
  · split
    · exact sends (.refl bench)
    · apply (Bench.relink_total _ _).bind
      intro _ linked only
      exact Action.Ensures.undoOnError_of_never (sends only)
  · exact sends (.refl bench)

theorem applyDelete_of_serves (sound : tree.WellFormed) (serves : bench.Serves more) {id : NodeId}
    {plan : Tree.DeletePlan} (planned : tree.planDelete id = .ok plan)
    (accepts : bench.firmware.Accepts id.entryKey .delete) :
    Action.Ensures (fun _ => True) (applyDelete plan) bench (fun _ => Follows bench)
      fun _ => False := by
  rcases Tree.planDelete_accepted planned with ⟨node, accepted⟩
  rw [← accepted.id_eq] at accepts
  apply (sendSla_of_owns sound serves accepted.owns (by decide) _ _ accepts).bind
  intro _ after follows
  exact (Bench.unlink_total _ _).weaken (fun _ _ only => follows.of_onlyRegisters only)
    fun _ never => never

/-- A planned operation returns its result exactly if the device does as planned. -/
theorem carryOut_eq_ok_iff {δ α π : Type} {plan : Tree → Outcome π} {apply : π → Action δ Unit}
    {commit : Tree → π → Tree} {result : π → α} {limiter : Limiter δ} {accepted : π}
    (planned : plan limiter.tree = .ok accepted) :
    (carryOut plan apply commit result limiter).1 = .ok (result accepted) ↔
      ∃ after, apply accepted limiter.device = (.ok (), after) := by
  simp only [carryOut, planned]
  rcases apply accepted limiter.device with ⟨failure | ⟨⟩, after⟩
  · simp
  · simp

/-- A planned operation that the device does as planned is committed. -/
theorem carryOut_of_applied {δ α π : Type} {plan : Tree → Outcome π} {apply : π → Action δ Unit}
    {commit : Tree → π → Tree} {result : π → α} {tree : Tree} {device after : δ} {accepted : π}
    (planned : plan tree = .ok accepted) (applied : apply accepted device = (.ok (), after)) :
    carryOut plan apply commit result ⟨tree, device⟩ =
      (.ok (result accepted), ⟨commit tree accepted, after⟩) := by
  simp only [carryOut, planned, applied]

/-- On a bench whose firmware shows the tree, what was planned for a new agreement is carried out. -/
theorem createSla_of_serves (sound : tree.WellFormed) (serves : bench.Serves more)
    (agrees : Agrees tree bench) {request : Sla} {plan : Tree.CreatePlan}
    (planned : tree.planCreate request = .ok plan) :
    ∃ after, createSla request ⟨tree, bench⟩ = (.ok request.node, ⟨tree.commitCreate plan, after⟩) ∧
      applyCreate plan bench = (.ok (), after) ∧ Follows bench after ∧
      Agrees (tree.commitCreate plan) after := by
  rcases Tree.planCreate_accepted planned with ⟨node, accepted⟩
  have free := agrees.described.lookup_of_vacant sound accepted.found accepted.vacant
  rcases (applyCreate_of_serves sound serves planned free).exists_ok with
    ⟨⟨⟩, after, applied, follows⟩
  have still := ((lasting_agrees.create tree request plan bench sound planned).of_ok applied).2 agrees
  refine ⟨after, ?_, applied, follows, still⟩
  rw [← accepted.sla_id]
  exact carryOut_of_applied planned applied

theorem updateSla_of_serves (sound : tree.WellFormed) (serves : bench.Serves more)
    (agrees : Agrees tree bench) {request : Sla} {plan : Tree.UpdatePlan}
    (planned : tree.planUpdate request = .ok plan) :
    ∃ after, updateSla request ⟨tree, bench⟩ = (.ok (), ⟨tree.commitUpdate plan, after⟩) ∧
      applyUpdate plan bench = (.ok (), after) ∧ Follows bench after ∧
      Agrees (tree.commitUpdate plan) after := by
  rcases Tree.planUpdate_accepted planned with ⟨node, accepted⟩
  have held := agrees.described.lookup_of_configured sound accepted.found accepted.bound
  rw [accepted.id_eq] at held
  rcases (applyUpdate_of_serves sound serves planned held).exists_ok with
    ⟨⟨⟩, after, applied, follows⟩
  have still := ((lasting_agrees.update tree request plan bench sound planned).of_ok applied).2 agrees
  exact ⟨after, carryOut_of_applied planned applied, applied, follows, still⟩

theorem deleteSla_of_serves (sound : tree.WellFormed) (serves : bench.Serves more)
    (agrees : Agrees tree bench) {id : NodeId} {plan : Tree.DeletePlan}
    (planned : tree.planDelete id = .ok plan) :
    ∃ after, deleteSla id ⟨tree, bench⟩ = (.ok (), ⟨tree.commitDelete plan, after⟩) ∧
      applyDelete plan bench = (.ok (), after) ∧ Follows bench after ∧
      Agrees (tree.commitDelete plan) after := by
  rcases Tree.planDelete_accepted planned with ⟨node, accepted⟩
  have held := agrees.described.lookup_of_configured sound accepted.found accepted.bound
  rcases (applyDelete_of_serves sound serves planned held).exists_ok with
    ⟨⟨⟩, after, applied, follows⟩
  have still := ((lasting_agrees.delete tree id plan bench sound planned).of_ok applied).2 agrees
  exact ⟨after, carryOut_of_applied planned applied, applied, follows, still⟩

/-- On a ready bench, a planned agreement is added exactly if the firmware has no entry for its node. -/
theorem createSla_of_ready (sound : tree.WellFormed) (ready : bench.Ready) {request : Sla}
    {plan : Tree.CreatePlan} (planned : tree.planCreate request = .ok plan) :
    (createSla request ⟨tree, bench⟩).1 = .ok request.node ↔
      bench.firmware.configured.lookup request.node.entryKey = none := by
  rcases Tree.planCreate_accepted planned with ⟨node, accepted⟩
  have node_eq := accepted.sla_node
  have known : plan.sla.node.kind? = some node.kind := by rw [node_eq, accepted.known sound]
  have ended : (createSla request ⟨tree, bench⟩).1 = .ok request.node ↔
      ∃ after, applyCreate plan bench = (.ok (), after) := by
    rw [← accepted.sla_id]
    exact carryOut_eq_ok_iff planned
  rw [ended]
  constructor
  · rintro ⟨after, applied⟩
    have programmed := ready.toDirect.faithful.programmed
    rcases ((applyCreate_programs programmed known).of_ok applied).2 with ⟨updated, done, -⟩
    rw [← node_eq]
    exact Firmware.accepts_of_reprogrammed done
  · intro free
    rcases (applyCreate_of_serves sound ready.serves planned free).exists_ok with
      ⟨⟨⟩, after, applied, -⟩
    exact ⟨after, applied⟩

/-- On a ready bench, an agreement that may go is deleted exactly if the firmware has an entry for its
node. -/
theorem deleteSla_of_ready (sound : tree.WellFormed) (ready : bench.Ready) {id : NodeId}
    {plan : Tree.DeletePlan} (planned : tree.planDelete id = .ok plan) :
    (deleteSla id ⟨tree, bench⟩).1 = .ok () ↔
      (bench.firmware.configured.lookup id.entryKey).isSome = true := by
  rcases Tree.planDelete_accepted planned with ⟨node, accepted⟩
  have id_eq := accepted.id_eq
  have known : plan.id.kind? = some node.kind := by rw [id_eq, accepted.known sound]
  have ended : (deleteSla id ⟨tree, bench⟩).1 = .ok () ↔
      ∃ after, applyDelete plan bench = (.ok (), after) := carryOut_eq_ok_iff planned
  rw [ended]
  constructor
  · rintro ⟨after, applied⟩
    have programmed := ready.toDirect.faithful.programmed
    rcases ((applyDelete_programs programmed known).of_ok applied).2 with ⟨updated, done, -⟩
    rw [← id_eq]
    exact Firmware.accepts_of_reprogrammed done
  · intro held
    rcases (applyDelete_of_serves sound ready.serves planned held).exists_ok with
      ⟨⟨⟩, after, applied, -⟩
    exact ⟨after, applied⟩

end Limiter

end RateTree
