import RateTree.Proofs.FirmwareAgreement
import RateTree.Proofs.InStep
import RateTree.Proofs.MailboxExchange

/-!
# The mailbox refines direct reach

A limiter cannot tell whether it reaches the firmware directly or through a mailbox that is answered in
time. From the first request on, whatever operations are performed and whatever requests are made to
fail, both ways give the same results up to the text of admin errors, the same tree and the same
registers, and leave the same requests and parameters with the firmware but for the addresses of the
parameter blocks. The message areas only use up addresses; so the mailbox may run out of them first, and
nothing is said of a run in which it does.
-/

namespace RateTree

/-- A request that does not say where its parameters are. -/
def AdminRequest.unplaced (request : AdminRequest) : AdminRequest := { request with block := 0 }

/-- The record of a request that does not say where its parameters were. -/
def FirmwareRecord.unplaced (record : FirmwareRecord) : FirmwareRecord :=
  { record with request := record.request.unplaced }

namespace Firmware

/-- A firmware that has forgotten where the parameters of its requests were. -/
def unplaced (firmware : Firmware) : Firmware :=
  { firmware with history := firmware.history.map FirmwareRecord.unplaced }

/-- How serving a command ends on two firmwares: with one response, or with the request lost. -/
inductive ServedAlike (command : AdminCommand) :
    Outcome AdminResponse × Firmware → Outcome AdminResponse × Firmware → Prop where
  | answered (response : AdminResponse) {one other : Firmware}
      (same : one.unplaced = other.unplaced) :
      ServedAlike command (.ok response, one) (.ok response, other)
  | lost {one other : Firmware} (same : one.unplaced = other.unplaced) :
      ServedAlike command (.error (.error (.admin command .injected)), one)
        (.error (.error (.admin command .injected)), other)

variable {one other : Firmware} {request again : AdminRequest} {given : Option SlaParameters}

theorem execute_unplaced (given : Option SlaParameters) (same : one.unplaced = other.unplaced)
    (requests : request.unplaced = again.unplaced) :
    (one.execute request given).1 = (other.execute again given).1 ∧
      (one.execute request given).2.unplaced = (other.execute again given).2.unplaced := by
  rcases one with ⟨initialised, history, configured, failNext, rejectNext⟩
  rcases other with ⟨otherInitialised, otherHistory, otherConfigured, otherFailNext, otherRejectNext⟩
  rcases request with ⟨command, blockSize, block, nodeTag, service, ringCount, nodeIndex⟩
  rcases again with ⟨againCommand, againSize, againBlock, againTag, againService, againCount, againIndex⟩
  simp only [unplaced, AdminRequest.unplaced, Firmware.mk.injEq, AdminRequest.mk.injEq] at same requests
  rcases same with ⟨rfl, histories, rfl, rfl, rfl⟩
  rcases requests with ⟨rfl, -, -, rfl, -, -, rfl⟩
  cases command with
  | init => simp [execute, unplaced, histories]
  | add | update | delete =>
      simp only [execute]
      split
      · simp [unplaced, histories]
      · simp [unplaced, histories]

theorem record_unplaced (given : Option SlaParameters) (same : one.unplaced = other.unplaced)
    (requests : request.unplaced = again.unplaced) :
    unplaced { one with history := ⟨request, given⟩ :: one.history } =
      unplaced { other with history := ⟨again, given⟩ :: other.history } := by
  have recorded := congrArg (fun firmware : Firmware =>
    { firmware with history := ⟨again.unplaced, given⟩ :: firmware.history }) same
  calc unplaced { one with history := ⟨request, given⟩ :: one.history }
      = { one.unplaced with history := ⟨request.unplaced, given⟩ :: one.unplaced.history } := rfl
    _ = { one.unplaced with history := ⟨again.unplaced, given⟩ :: one.unplaced.history } := by
        rw [requests]
    _ = { other.unplaced with history := ⟨again.unplaced, given⟩ :: other.unplaced.history } :=
        recorded
    _ = unplaced { other with history := ⟨again, given⟩ :: other.history } := rfl

theorem answer_alike (given : Option SlaParameters) (same : one.unplaced = other.unplaced)
    (requests : request.unplaced = again.unplaced) :
    ServedAlike again.command (answer request given one) (answer again given other) := by
  have commands : request.command = again.command := (congrArg AdminRequest.command requests :)
  have failing : one.failNext = other.failNext := (congrArg Firmware.failNext same :)
  have rejecting : one.rejectNext = other.rejectNext := (congrArg Firmware.rejectNext same :)
  rw [answer, answer, Action.bind_apply, Action.bind_apply, Action.get_apply, Action.get_apply]
  simp only [commands, failing, rejecting]
  split
  · exact .lost (congrArg (fun firmware : Firmware =>
      { firmware with failNext := firmware.failNext - 1 }) same)
  · split
    · exact .answered _ (congrArg (fun firmware : Firmware =>
        { firmware with rejectNext := firmware.rejectNext - 1 }) same)
    · rcases execute_unplaced given same requests with ⟨status, executed⟩
      rw [status]
      exact .answered _ executed

theorem serve_eq {memory : Nat → Option (List UInt8)} (read : readParameters memory request = .ok given)
    (firmware : Firmware) :
    serve memory request firmware =
      answer request given { firmware with history := ⟨request, given⟩ :: firmware.history } := by
  have known : (liftM (readParameters memory request) : Action Firmware _) firmware =
      (.ok given, firmware) := by
    rw [Action.liftError_apply, read]
    rfl
  rw [serve, Action.bind_apply, known]
  rfl

theorem serve_alike {memory elsewhere : Nat → Option (List UInt8)}
    (same : one.unplaced = other.unplaced) (requests : request.unplaced = again.unplaced)
    (read : readParameters memory request = .ok given)
    (read_again : readParameters elsewhere again = .ok given) :
    ServedAlike again.command (serve memory request one) (serve elsewhere again other) := by
  rw [serve_eq read, serve_eq read_again]
  exact answer_alike given (record_unplaced given same requests) requests

end Firmware

namespace AdminChannel

variable {σ : Type} [AdminTransport σ] {request : AdminRequest} {state after : σ}

/-- What a response to a request comes to for the sender. -/
def verdict (request : AdminRequest) (response : AdminResponse) : Outcome Unit :=
  if response.commandId ≠ request.command.id then
    .error (.error (.admin request.command (.foreignResponse response.commandId)))
  else if response.status ≠ 0 then
    .error (.error (.admin request.command (.status response.status)))
  else .ok ()

theorem roundTrip_of_ok {response : AdminResponse}
    (exchanged : AdminTransport.exchange request state = (.ok response, after)) :
    roundTrip request state = (verdict request response, after) := by
  rw [roundTrip, Action.bind_apply, Action.mapError, exchanged]
  simp only [verdict]
  split
  · rfl
  · split <;> rfl

theorem roundTrip_of_error {cause : Error}
    (exchanged : AdminTransport.exchange request state = (.error (.error cause), after)) :
    roundTrip request state = (.error (.error (carrierError request.command cause)), after) := by
  rw [roundTrip, Action.bind_apply, Action.mapError, exchanged]

end AdminChannel

namespace Bench

theorem Behind.with_state {bench : Bench} {limits : PollLimits} (behind : Behind limits bench)
    (registers : RegisterFile) (pool : Pool) (firmware : Firmware) (sent : Nat) :
    Behind limits { bench with registers, pool, firmware, sent } :=
  ⟨behind.carrier_eq, behind.bell, behind.faults_eq, behind.parameters_eq, behind.messages_eq⟩

/-- Two benches are the same device, near when its firmware is within direct reach and far when it is
behind the mailbox. -/
structure Paired (limits : PollLimits) (near far : Bench) : Prop where
  direct : Direct near
  behind : Behind limits far
  registers : ∀ offset ∉ Mailbox.registers, near.registers.read offset = far.registers.read offset
  firmware : near.firmware.unplaced = far.firmware.unplaced
  addresses : near.pool.nextAddress ≤ far.pool.nextAddress

variable {limits : PollLimits} {bench near far : Bench} {request again : AdminRequest}

theorem Paired.with_pools (paired : Paired limits near far) {pool other : Pool}
    (addresses : pool.nextAddress ≤ other.nextAddress) :
    Paired limits { near with pool } { far with pool := other } where
  direct := paired.direct.with_state _ _ _ _
  behind := paired.behind.with_state _ _ _ _
  registers := paired.registers
  firmware := paired.firmware
  addresses := addresses

theorem send_of_faultless (faultless : bench.faults = []) :
    send request bench = deliver request { bench with sent := bench.sent + 1 } := by
  simp only [send, Action.bind_apply, Action.modify_apply, Action.get_apply, currentFault?, faultless,
    List.reverse_nil, List.find?_nil, Option.map_none]

theorem deliver_of_mailbox (request : AdminRequest) (carrier : bench.carrier = .mailbox limits) :
    deliver request bench = Mailbox.exchange limits request bench := by
  rw [deliver, carrier]

theorem send_of_direct (direct : Direct bench) {outcome : Outcome AdminResponse} {firmware : Firmware}
    (served : Firmware.serve bench.pool.read request bench.firmware = (outcome, firmware)) :
    send request bench = (outcome, { bench with sent := bench.sent + 1, firmware }) := by
  have received : Firmware.receive bench.pool.read request.encode bench.firmware =
      (outcome, firmware) := by
    rw [Firmware.receive, AdminRequest.decode_encode]
    exact served
  rw [send_of_faultless direct.faults_eq]
  simp only [deliver, direct.carrier_eq, onFirmware, Action.focus, received]

theorem send_of_behind (behind : Behind limits bench) (room : bench.pool.nextAddress < 2 ^ 64)
    (elsewhere : request.block.toNat ≠ bench.pool.nextAddress) {outcome : Outcome AdminResponse}
    {firmware : Firmware}
    (served : Firmware.serve bench.pool.read request bench.firmware = (outcome, firmware)) :
    ∃ after, send request bench = (.ok (Firmware.reported request outcome), after) ∧
      Exchanged limits bench after firmware := by
  have counted : Behind limits { bench with sent := bench.sent + 1 } := behind.with_state _ _ _ _
  rcases exchange_eq counted room elsewhere served with ⟨after, exchanged, left⟩
  refine ⟨after, ?_, left.behind, left.firmware_eq, left.registers, left.addresses⟩
  have delivered := deliver_of_mailbox request counted.carrier_eq
  rw [send_of_faultless behind.faults_eq, delivered, exchanged]

open RateTree.Action (EndsAlike InStep)

theorem roundTrip_alike (paired : Paired limits near far) (requests : request.unplaced = again.unplaced)
    {given : Option SlaParameters}
    (read : Firmware.readParameters near.pool.read request = .ok given)
    (read_again : Firmware.readParameters far.pool.read again = .ok given)
    (elsewhere : again.block.toNat ≠ far.pool.nextAddress)
    (still : intact (AdminChannel.roundTrip again far).2) :
    EndsAlike (Paired limits) (AdminChannel.roundTrip request near)
      (AdminChannel.roundTrip again far) := by
  have room : far.pool.nextAddress < 2 ^ 64 := (AdminChannel.roundTrip_ensures again).was_intact still
  have alike := Firmware.serve_alike paired.firmware requests read read_again
  rcases served : Firmware.serve near.pool.read request near.firmware with ⟨outcome, firmware⟩
  rcases served_again : Firmware.serve far.pool.read again far.firmware with ⟨far_outcome, far_firmware⟩
  rw [served, served_again] at alike
  have sent := send_of_direct paired.direct served
  rcases send_of_behind paired.behind room elsewhere served_again with ⟨after, sent_again, left⟩
  have pair : firmware.unplaced = far_firmware.unplaced →
      Paired limits { near with sent := near.sent + 1, firmware } after := by
    intro same
    refine ⟨paired.direct.with_state _ _ _ _, left.behind, ?_, ?_,
      Nat.le_trans paired.addresses left.addresses⟩
    · intro offset other
      rw [left.registers offset other]
      exact paired.registers offset other
    · rw [left.firmware_eq]
      exact same
  have commands : request.command = again.command := (congrArg AdminRequest.command requests :)
  cases alike with
  | answered response same =>
      rw [AdminChannel.roundTrip_of_ok sent, AdminChannel.roundTrip_of_ok sent_again]
      have verdicts : AdminChannel.verdict request response = AdminChannel.verdict again response := by
        simp only [AdminChannel.verdict, commands]
      rw [verdicts]
      exact .of_same _ (pair same)
  | lost same =>
      rw [AdminChannel.roundTrip_of_error sent, AdminChannel.roundTrip_of_ok sent_again]
      have verdict : AdminChannel.verdict again (Firmware.reported again
          (.error (.error (.admin again.command .injected)))) =
            .error (.error (.admin again.command (.status 0xEE))) := by
        simp [AdminChannel.verdict, Firmware.reported]
      rw [verdict]
      exact .error (.error (.admin _ _ _)) (pair same)

theorem readParameters_bare (memory : Nat → Option (List UInt8)) (command : AdminCommand) :
    Firmware.readParameters memory (.bare command) = .ok none := rfl

theorem sendInit_inStep : InStep (Paired limits) intact AdminChannel.sendInit where
  was_sound bench still := (AdminChannel.roundTrip_ensures _).was_intact still
  keeps near far paired still := by
    have elsewhere : (AdminRequest.bare .init).block.toNat ≠ far.pool.nextAddress := by
      simp only [AdminRequest.bare, Pool.nextAddress, firstAddress, UInt64.toNat_zero]
      omega
    exact roundTrip_alike paired rfl (readParameters_bare _ _) (readParameters_bare _ _) elsewhere still

theorem write_inStep (offset : Nat) {value : UInt32} (no_bell : value ≠ 1) :
    InStep (Paired limits) intact (writeRegister offset value) where
  was_sound bench still := by
    rwa [writeRegister_eq (fun bell => no_bell bell.2)] at still
  keeps near far paired _ := by
    rw [writeRegister_eq (fun bell => no_bell bell.2), writeRegister_eq (fun bell => no_bell bell.2)]
    refine .ok () ⟨paired.direct.with_state _ _ _ _, paired.behind.with_state _ _ _ _, ?_,
      paired.firmware, paired.addresses⟩
    intro other elsewhere
    rw [RegisterFile.read_write, RegisterFile.read_write, paired.registers other elsewhere]

/-- A command whose parameters lie in a new block on either bench ends alike. -/
theorem roundTrip_in_block (paired : Paired limits near far) (room : far.pool.nextAddress < 2 ^ 64)
    {pool other : Pool} {bytes : List UInt8} (held : pool.read near.pool.nextAddress = some bytes)
    (other_held : other.read far.pool.nextAddress = some bytes)
    (exact : bytes.length = parameterBlockSize)
    (next_eq : pool.nextAddress = near.pool.nextAddress + pageSize)
    (other_next : other.nextAddress = far.pool.nextAddress + pageSize) {rings : Nat} (few : rings ≤ maxRings)
    (command : AdminCommand) (kind : NodeKind) (id : NodeId) (service : Service)
    (still : intact (AdminChannel.roundTrip
      (AdminChannel.slaRequest command kind id service rings far.pool.nextAddress)
      { far with pool := other }).2) :
    EndsAlike (Paired limits)
      (AdminChannel.roundTrip
        (AdminChannel.slaRequest command kind id service rings near.pool.nextAddress)
        { near with pool })
      (AdminChannel.roundTrip
        (AdminChannel.slaRequest command kind id service rings far.pool.nextAddress)
        { far with pool := other }) := by
  have addresses := paired.addresses
  have above : 0 < near.pool.nextAddress := by
    simp only [Pool.nextAddress, firstAddress]
    omega
  have near_room : near.pool.nextAddress < 2 ^ 64 := by omega
  have far_above : 0 < far.pool.nextAddress := by omega
  rcases Firmware.exists_readParameters above near_room few held exact command kind id service with
    ⟨given, read⟩
  have other_read : Firmware.readParameters other.read
      (AdminChannel.slaRequest command kind id service rings far.pool.nextAddress) = .ok given := by
    rw [AdminChannel.readParameters_of_held far_above room few other_held, ← read,
      AdminChannel.readParameters_of_held above near_room few held]
  have elsewhere :
      (AdminChannel.slaRequest command kind id service rings far.pool.nextAddress).block.toNat ≠
        other.nextAddress := by
    simp only [AdminChannel.slaRequest, Nat.toUInt64, UInt64.toNat_ofNat', other_next, pageSize]
    omega
  exact roundTrip_alike (paired.with_pools (by omega)) rfl read other_read elsewhere still

theorem withBlock_alike (paired : Paired limits near far) {body : Block → Action Bench Unit}
    (inner : ∀ positive : 0 < parameterBlockSize, far.pool.nextAddress < 2 ^ 64 →
      intact (body ⟨far.pool.nextAddress, parameterBlockSize⟩
        { far with pool := far.pool.push parameterBlockSize positive }).2 →
      EndsAlike (Paired limits)
        (body ⟨near.pool.nextAddress, parameterBlockSize⟩
          { near with pool := near.pool.push parameterBlockSize positive })
        (body ⟨far.pool.nextAddress, parameterBlockSize⟩
          { far with pool := far.pool.push parameterBlockSize positive }))
    (still : intact (withBlock .parameters parameterBlockSize body far).2) :
    EndsAlike (Paired limits) (withBlock .parameters parameterBlockSize body near)
      (withBlock .parameters parameterBlockSize body far) := by
  have addresses := paired.addresses
  have lends := withBlock_lends paired.direct.limit_eq body
  have far_lends := withBlock_lends paired.behind.parameters_eq body
  generalize withBlock .parameters parameterBlockSize body near = left at lends ⊢
  generalize withBlock .parameters parameterBlockSize body far = right at far_lends still ⊢
  cases far_lends with
  | exhausted cause full => exact absurd still (Nat.not_lt.2 full)
  | lent positive room far_ended =>
      cases lends with
      | exhausted cause full => omega
      | lent _ _ ended =>
          have ends := inner positive room
          rw [ended, far_ended] at ends
          cases ends still with
          | ok value pair => exact .ok value (pair.with_pools pair.addresses)
          | error resembles pair => exact .error resembles (pair.with_pools pair.addresses)

theorem sendSla_inStep (command : AdminCommand) (id : NodeId) (service : Service) (tokens : Tokens)
    (rings : List Nat) :
    InStep (Paired limits) intact (AdminChannel.sendSla command id service tokens rings) where
  was_sound bench still := (AdminChannel.sendSla_ensures _ _ _ _ _).was_intact still
  keeps near far paired still := by
    by_cases reset : command = .init
    · subst reset
      exact .of_same _ paired
    cases known : id.kind? with
    | none =>
        simp only [AdminChannel.sendSla, if_neg reset, known]
        exact .of_same _ paired
    | some kind =>
        simp only [AdminChannel.sendSla, if_neg reset, known, Action.bind_apply,
          Action.liftError_apply] at still ⊢
        cases listed : AdminChannel.ringIds rings with
        | error cause => exact .of_same _ paired
        | ok ids =>
            rw [listed] at still
            rcases AdminChannel.ringIds_eq_ok.1 listed with ⟨few, -, rfl⟩
            have fits : (rings.map Nat.toUInt16).length ≤ maxRings := by simpa using few
            refine withBlock_alike paired ?_ still
            intro positive room sent
            have next_eq (pool : Pool) := pool.nextAddress_push positive (by decide)
            split at sent
            · next sets =>
              have exact : (SlaParameters.encode ⟨tokens, rings.map Nat.toUInt16⟩).length =
                  parameterBlockSize := SlaParameters.length_encode _
              rw [Action.bind_apply, fill_push exact.le] at sent
              rw [if_pos sets, if_pos sets, Action.bind_apply, Action.bind_apply, fill_push exact.le,
                fill_push exact.le]
              exact roundTrip_in_block paired room (Pool.read_push_overwriteBlock exact)
                (Pool.read_push_overwriteBlock exact) exact (next_eq _) (next_eq _) fits command kind id
                service sent
            · next deletes =>
              rw [if_neg deletes, if_neg deletes]
              exact roundTrip_in_block paired room Pool.read_push Pool.read_push (Bytes.length_zeros _)
                (next_eq _) (next_eq _) fits command kind id service sent

theorem callsInStep : CallsInStep Bench (Paired limits) intact where
  write offset _ no_bell := write_inStep offset no_bell
  sendInit := sendInit_inStep
  sendSla := sendSla_inStep

theorem Paired.with_firmware (paired : Paired limits near far) (change : Firmware → Firmware)
    (unplaced : ∀ firmware, (change firmware).unplaced = change firmware.unplaced) :
    Paired limits { near with firmware := change near.firmware }
      { far with firmware := change far.firmware } where
  direct := paired.direct.with_state _ _ _ _
  behind := paired.behind.with_state _ _ _ _
  registers := paired.registers
  firmware := by rw [unplaced, unplaced, paired.firmware]
  addresses := paired.addresses

end Bench

namespace Limiter

open RateTree.Action (InStep)
open Bench (Paired)

/-! ## Sessions -/

section Results

variable {δ : Type} [RegisterAccess δ] [BlockMemory δ] [AdminTransport δ]

theorem Operation.perform_inStep {related : δ → δ → Prop} {sound : δ → Prop}
    (calls : CallsInStep δ related sound) (operation : Operation) :
    StaysBeside related sound (operation.perform (δ := δ)) := by
  cases operation with
  | createNode kind service => exact (onTree_inStep _).bind fun _ => .pure _
  | deleteNode id => exact (deleteNode_inStep calls id).bind fun _ => .pure _
  | createSla request => exact (createSla_inStep calls request).bind fun _ => .pure _
  | updateSla request => exact (updateSla_inStep calls request).bind fun _ => .pure _
  | deleteSla id => exact (deleteSla_inStep calls id).bind fun _ => .pure _
  | exit => exact (tearDown_inStep calls).bind fun _ => .pure _

end Results

/-- What can happen to a limiter on a bench. -/
inductive Event where
  | perform (operation : Operation)
  /-- The firmware is to lose a number of the next requests. -/
  | failNext (count : Nat)
  /-- The firmware is to reject a number of the next requests. -/
  | rejectNext (count : Nat)

/-- Changes the firmware under a limiter. -/
def onFirmware (change : Firmware → Firmware) : Action (Limiter Bench) Unit :=
  Action.modify fun limiter => { limiter with
    device := { limiter.device with firmware := change limiter.device.firmware } }

/-- Lets an event happen. Only an operation has a result. -/
def Event.happen : Event → Action (Limiter Bench) (Option NodeId)
  | .perform operation => operation.perform
  | .failNext count => do
    onFirmware fun firmware => { firmware with failNext := count }
    return none
  | .rejectNext count => do
    onFirmware fun firmware => { firmware with rejectNext := count }
    return none

/-- What a limiter shows once an event has happened. -/
structure Reply where
  outcome : Outcome (Option NodeId)
  /-- The tree that the event left, by which every question to the limiter is answered. -/
  tree : Tree

/-- Whether two replies are the same but for what admin errors say. -/
structure Reply.Resembles (one other : Reply) : Prop where
  outcome : Outcome.Resembles one.outcome other.outcome
  tree_eq : one.tree = other.tree

/-- The replies to events, one after the other, and the limiter after them. -/
def attend : List Event → Limiter Bench → List Reply × Limiter Bench
  | [], limiter => ([], limiter)
  | event :: rest, limiter =>
    let (outcome, after) := event.happen limiter
    let (replies, last) := attend rest after
    (⟨outcome, after.tree⟩ :: replies, last)

/-- What can be seen of a limiter that is brought up on a bench and then has events happen to it. -/
structure Session where
  /-- How bringing it up ended, and the tree that it came up with. -/
  up : Outcome Tree
  replies : List Reply
  bench : Bench

/-- The session in which a limiter is brought up on a bench and, if it comes up, events happen one after
the other. -/
def session (profile : Profile) (config : DeviceConfig) (events : List Event) (bench : Bench) :
    Session :=
  match start profile config bench with
  | (.error failure, after) => ⟨.error failure, [], after⟩
  | (.ok tree, ready) =>
    let (replies, last) := attend events ⟨tree, ready⟩
    ⟨.ok tree, replies, last.device⟩

/-- Two sessions show the same but for what the errors of commands say, the registers of the mailbox,
and where in memory parameters were. -/
structure Session.Resembles (one other : Session) : Prop where
  up : Outcome.Resembles one.up other.up
  replies : List.Forall₂ Reply.Resembles one.replies other.replies
  links : SameLinks one.bench other.bench
  registers : ∀ offset ∉ Mailbox.registers,
    one.bench.registers.read offset = other.bench.registers.read offset
  records : one.bench.firmware.records.map FirmwareRecord.unplaced =
    other.bench.firmware.records.map FirmwareRecord.unplaced
  configured_eq : one.bench.firmware.configured = other.bench.firmware.configured
  initialised_eq : one.bench.firmware.initialised = other.bench.firmware.initialised

variable (limits : PollLimits) {one other : Limiter Bench} {near far : Bench}

theorem onFirmware_inStep (change : Firmware → Firmware)
    (unplaced : ∀ firmware, (change firmware).unplaced = change firmware.unplaced) :
    StaysBeside (Paired limits) intact (onFirmware change) where
  was_sound _ still := still
  keeps _ _ pair _ := .ok () ⟨pair.tree_eq, pair.devices.with_firmware change unplaced⟩

theorem Event.happen_inStep (event : Event) : StaysBeside (Paired limits) intact event.happen := by
  cases event with
  | perform operation => exact operation.perform_inStep Bench.callsInStep
  | failNext count =>
      apply (onFirmware_inStep limits (fun firmware => { firmware with failNext := count })
        fun _ => rfl).bind
      exact fun _ => .pure _
  | rejectNext count =>
      apply (onFirmware_inStep limits (fun firmware => { firmware with rejectNext := count })
        fun _ => rfl).bind
      exact fun _ => .pure _

theorem was_intact_attend (events : List Event) (limiter : Limiter Bench)
    (still : intact (attend events limiter).2.device) : intact limiter.device := by
  induction events generalizing limiter with
  | nil => exact still
  | cons event rest ih =>
      exact (event.happen_inStep .usual).was_sound limiter (ih _ still)

variable {limits}

/-- Whatever happens to both, limiters on paired benches stay the same. -/
theorem attend_alike (events : List Event) (pair : Beside (Paired limits) one other)
    (still : intact (attend events other).2.device) :
    List.Forall₂ Reply.Resembles (attend events one).1 (attend events other).1 ∧
      Beside (Paired limits) (attend events one).2 (attend events other).2 := by
  induction events generalizing one other with
  | nil => exact ⟨.nil, pair⟩
  | cons event rest ih =>
      have ends := (event.happen_inStep limits).keeps one other pair
        (was_intact_attend rest _ still)
      rcases ih ends.states still with ⟨replies, last⟩
      exact ⟨.cons ⟨ends.outcomes, ends.states.tree_eq⟩ replies, last⟩

theorem Session.Resembles.of_paired {one other : Session} (up : Outcome.Resembles one.up other.up)
    (replies : List.Forall₂ Reply.Resembles one.replies other.replies)
    (paired : Paired limits one.bench other.bench) :
    one.Resembles other where
  up := up
  replies := replies
  links table index inside := by
    rcases Bench.offset_ne_mailbox inside with ⟨doorbell, low, high⟩
    apply (paired.registers (table.offset index) _).symm
    simp [Mailbox.registers, doorbell, low, high]
  registers := paired.registers
  records := by
    have histories := congrArg Firmware.history paired.firmware
    simp only [Firmware.unplaced] at histories
    rw [Firmware.records, Firmware.records, List.map_reverse, List.map_reverse, histories]
  configured_eq := (congrArg Firmware.configured paired.firmware :)
  initialised_eq := (congrArg Firmware.initialised paired.firmware :)

/-- The mailbox refines direct reach: brought up on a device that answers its mailbox in time, and then
through every sequence of operations and injected failures, a limiter shows the same as on the same
device within direct reach, for as long as the addresses of the device's memory last. -/
theorem mailbox_refines_direct (profile : Profile) (config : DeviceConfig) (events : List Event)
    (paired : Paired limits near far) (still : intact (session profile config events far).bench) :
    (session profile config events near).Resembles (session profile config events far) := by
  have raised : InStep (Paired limits) intact (start profile config) :=
    start_inStep Bench.callsInStep profile config
  have ends := raised.keeps near far paired
  simp only [session] at still ⊢
  generalize start profile config near = left at ends ⊢
  rcases ended : start profile config far with ⟨failure | tree, ready⟩ <;> rw [ended] at ends still
  · cases ends still with
    | error resembles pair => exact .of_paired (.error resembles) .nil pair
  · cases ends (was_intact_attend events _ still) with
    | @ok tree one _ pair =>
        have beside : Beside (Paired limits) ⟨tree, one⟩ ⟨tree, ready⟩ := ⟨rfl, pair⟩
        rcases attend_alike events beside still with ⟨replies, last⟩
        exact .of_paired (.ok tree) replies last.devices

/-- A fresh device behind a mailbox that takes its time to clear the doorbell. -/
def freshBehind : Bench :=
  { Bench.fresh with
    carrier := .mailbox ⟨3, 64, 100⟩
    bell := some { delay := 1, silent := false, answer := none, delays := [0, 2] } }

/-- The first leaf is asked for until neither a lost nor a rejected request is in its way, and then
everything is torn down. -/
def insistent : List Event :=
  [.failNext 1, .perform (.createSla firstLeaf), .rejectNext 1, .perform (.createSla firstLeaf),
    .perform (.createSla firstLeaf), .perform .exit]

theorem mailbox_refines_direct_on_bench :
    Paired ⟨3, 64, 100⟩ Bench.fresh freshBehind ∧
      intact (session Profile.gen4 smallConfig insistent freshBehind).bench ∧
      (session Profile.gen4 smallConfig insistent Bench.fresh).Resembles
        (session Profile.gen4 smallConfig insistent freshBehind) := by
  have inTime : Bell.InTime ⟨1, false, none, [0, 2]⟩ ⟨3, 64, 100⟩ := ⟨rfl, rfl, by decide, by decide⟩
  have paired : Paired ⟨3, 64, 100⟩ Bench.fresh freshBehind :=
    ⟨⟨rfl, rfl, rfl⟩, ⟨rfl, ⟨_, rfl, inTime⟩, rfl, rfl, rfl⟩, fun _ _ => rfl, rfl, Nat.le_refl _⟩
  have still : intact (session Profile.gen4 smallConfig insistent freshBehind).bench := by
    change Pool.nextAddress _ < 2 ^ 64
    decide +kernel
  exact ⟨paired, still, mailbox_refines_direct _ _ _ paired still⟩

end Limiter

end RateTree
