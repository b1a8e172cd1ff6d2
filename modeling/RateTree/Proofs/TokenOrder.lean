import RateTree.Proofs.MailboxRefinement
import RateTree.Proofs.Spending
import RateTree.Proofs.Translation

/-!
# The order of tokens

Tokens grow with the rate in every dimension, clipped or not, and can be computed of a rate if they can be
computed of a higher one. The peak rate of an agreement is never below its committed rate, so that every
agreement that reaches the firmware has at least as many peak tokens as committed ones, whether the
firmware then accepts it or not, and an update that raises a rate never takes tokens away.
-/

namespace RateTree

/-- One set of tokens is at most another in every dimension. -/
instance : LE TokenSet := ⟨fun set other => ∀ dimension, set.count dimension ≤ other.count dimension⟩

namespace Tokens

variable {profile : Profile} {service : Service} {cir pir : Nat} {tokens : Tokens}

theorem committed_le_peak (given : ofRates profile service cir pir = .ok tokens) (ordered : cir ≤ pir) :
    tokens.committed ≤ tokens.peak := by
  intro dimension
  rcases compute_eq_ok.1 (ofRates_eq_ok.1 given).1 dimension with ⟨low, high⟩
  exact Profile.tokensFor_mono low high ordered

/-- Higher rates are given no fewer tokens. -/
theorem le_of_ofRates {higherCir higherPir : Nat} {more : Tokens}
    (given : ofRates profile service cir pir = .ok tokens)
    (given_more : ofRates profile service higherCir higherPir = .ok more) :
    (cir ≤ higherCir → tokens.committed ≤ more.committed) ∧
      (pir ≤ higherPir → tokens.peak ≤ more.peak) := by
  have counts := compute_eq_ok.1 (ofRates_eq_ok.1 given).1
  have more_counts := compute_eq_ok.1 (ofRates_eq_ok.1 given_more).1
  constructor
  · intro below dimension
    exact Profile.tokensFor_mono (counts dimension).1 (more_counts dimension).1 below
  · intro below dimension
    exact Profile.tokensFor_mono (counts dimension).2 (more_counts dimension).2 below

end Tokens

namespace Tree

variable {tree : Tree} {request : Sla}

theorem ordered_of_planCreate {plan : CreatePlan} (planned : tree.planCreate request = .ok plan) :
    plan.tokens.committed ≤ plan.tokens.peak := by
  rcases planCreate_accepted planned with ⟨node, accepted⟩
  apply Tokens.committed_le_peak accepted.tokens
  rw [accepted.sla_cir, accepted.sla_pir]
  exact Nat.le_max_left _ _

theorem ordered_of_planUpdate {plan : UpdatePlan} (planned : tree.planUpdate request = .ok plan) :
    plan.tokens.committed ≤ plan.tokens.peak := by
  rcases planUpdate_accepted planned with ⟨node, accepted⟩
  apply Tokens.committed_le_peak accepted.tokens
  rw [accepted.sla_eq]
  exact Nat.le_max_left _ _

end Tree

/-! ## What is put on record -/

/-- Whether a record that sets up or changes an agreement has at least as many peak tokens as committed
ones. -/
def FirmwareRecord.Ordered (record : FirmwareRecord) : Prop :=
  record.request.command = .add ∨ record.request.command = .update →
    ∃ parameters, record.parameters = some parameters ∧
      parameters.tokens.committed ≤ parameters.tokens.peak

namespace Firmware

variable {memory : Nat → Option (List UInt8)} {request : AdminRequest}

/-- How the history of the firmware goes on when a request is served: with the request and the parameters
that were read for it, unless these could not be read. -/
inductive Recorded (memory : Nat → Option (List UInt8)) (request : AdminRequest)
    (history : List FirmwareRecord) : List FirmwareRecord → Prop where
  | unread : Recorded memory request history history
  | put (given : Option SlaParameters) (read : readParameters memory request = .ok given) :
      Recorded memory request history (⟨request, given⟩ :: history)

theorem history_execute (firmware : Firmware) (request : AdminRequest)
    (given : Option SlaParameters) :
    (firmware.execute request given).2.history = firmware.history := by
  simp only [execute]
  split
  · rfl
  · split <;> rfl
  · split <;> rfl
  · split <;> rfl

theorem history_answer (given : Option SlaParameters) (firmware : Firmware) :
    (answer request given firmware).2.history = firmware.history := by
  simp only [answer, Action.bind_apply, Action.get_apply]
  split
  · rfl
  · split
    · rfl
    · exact history_execute firmware request given

theorem recorded_serve (firmware : Firmware) :
    Recorded memory request firmware.history (serve memory request firmware).2.history := by
  cases read : readParameters memory request with
  | error cause =>
      have unread : (serve memory request firmware).2 = firmware := by
        simp only [serve, Action.bind_apply, Action.liftError_apply, read]
        rfl
      rw [unread]
      exact .unread
  | ok given =>
      rw [serve_eq read, history_answer]
      exact .put given read

end Firmware

theorem AdminChannel.state_roundTrip {σ : Type} [AdminTransport σ] (request : AdminRequest)
    (state : σ) : (roundTrip request state).2 = (AdminTransport.exchange request state).2 := by
  simp only [roundTrip, Action.bind_apply, Action.mapError]
  rcases AdminTransport.exchange request state with ⟨(cause | cause) | response, after⟩
  · rfl
  · rfl
  · simp only
    split
    · rfl
    · split <;> rfl

namespace Bench

variable {bench after : Bench} {α : Type}

/-- Whether the firmware of a bench is within direct reach and has not seen a request yet. -/
structure Untouched (bench : Bench) : Prop where
  direct : Direct bench
  history_eq : bench.firmware.history = []

/-- Whether a bench within direct reach has only put ordered agreements on record. -/
structure Orderly (bench : Bench) : Prop where
  direct : Direct bench
  ordered : ∀ record ∈ bench.firmware.history, record.Ordered

/-- Whether an action leaves such a bench as one, however it ends. -/
abbrev KeepsOrder (action : Action Bench α) : Prop :=
  action.Spends Orderly (fun _ => 0) 0

theorem KeepsOrder.of {action : Action Bench α}
    (keeps : ∀ bench, Orderly bench → Orderly (action bench).2) : KeepsOrder action :=
  fun bench orderly => ⟨keeps bench orderly, Nat.le_refl _⟩

/-- An exchange puts at most one request on record. -/
theorem recorded_roundTrip (direct : Direct bench) (request : AdminRequest) :
    Direct (AdminChannel.roundTrip request bench).2 ∧
      Firmware.Recorded bench.pool.read request bench.firmware.history
        (AdminChannel.roundTrip request bench).2.firmware.history := by
  rcases served : Firmware.serve bench.pool.read request bench.firmware with ⟨outcome, firmware⟩
  have recorded : Firmware.Recorded bench.pool.read request bench.firmware.history
      (Firmware.serve bench.pool.read request bench.firmware).2.history :=
    Firmware.recorded_serve bench.firmware
  rw [served] at recorded
  have sent : AdminTransport.exchange request bench =
      (outcome, { bench with sent := bench.sent + 1, firmware }) := send_of_direct direct served
  rw [AdminChannel.state_roundTrip, sent]
  exact ⟨direct.with_state _ _ _ _, recorded⟩

/-- A command whose parameters, if they are read at all, are ordered. -/
theorem Orderly.roundTrip (orderly : Orderly bench) {request : AdminRequest}
    (ordered : ∀ given, Firmware.readParameters bench.pool.read request = .ok given →
      FirmwareRecord.Ordered ⟨request, given⟩) :
    Orderly (AdminChannel.roundTrip request bench).2 := by
  rcases recorded_roundTrip orderly.direct request with ⟨direct, recorded⟩
  refine ⟨direct, ?_⟩
  generalize (AdminChannel.roundTrip request bench).2.firmware.history = history at recorded
  cases recorded with
  | unread => exact orderly.ordered
  | put given read =>
      intro record mem
      rcases List.mem_cons.1 mem with rfl | earlier
      · exact ordered given read
      · exact orderly.ordered record earlier

theorem Orderly.with_pool (orderly : Orderly bench) (pool : Pool) : Orderly { bench with pool } :=
  ⟨orderly.direct.with_state _ _ _ _, orderly.ordered⟩

theorem OnlyRegisters.orderly (only : OnlyRegisters bench after) (orderly : Orderly bench) :
    Orderly after := by
  rcases only with ⟨registers, rfl⟩
  exact ⟨orderly.direct.with_state _ _ _ _, orderly.ordered⟩

/-- What only touches registers, and never faults, puts nothing on record. -/
theorem KeepsOrder.of_total {action : Action Bench α} {failed : Bench → Bench → Prop}
    (total : ∀ bench, Action.Ensures (fun _ => True) action bench
      (fun _ => OnlyRegisters bench) (failed bench))
    (on_error : ∀ bench after, failed bench after → OnlyRegisters bench after) :
    KeepsOrder action := by
  apply KeepsOrder.of
  intro bench orderly
  rcases ended : action bench with ⟨(cause | cause) | value, after⟩
  · exact (on_error bench after ((total bench).of_error ended).2).orderly orderly
  · exact absurd trivial ((total bench).of_fault ended)
  · exact ((total bench).of_ok ended).2.orderly orderly

theorem keepsOrder_link (node : NodeId) (parent : Option NodeId) (rings : List Nat) :
    KeepsOrder (LinkTable.link node parent rings) :=
  .of_total (fun _ => link_total node parent rings) fun _ _ refused => refused.1

theorem keepsOrder_unlink (node : NodeId) (rings : List Nat) :
    KeepsOrder (LinkTable.unlink node rings) :=
  .of_total (fun _ => unlink_total node rings) fun _ _ never => never.elim

theorem keepsOrder_relink (leaf cluster : NodeId) : KeepsOrder (LinkTable.relink leaf cluster) :=
  .of_total (fun _ => relink_total leaf cluster) fun _ _ never => never.elim

/-- In the block at the next address, a command is put on record with the parameters that it was given. -/
theorem Orderly.sendIn (orderly : Orderly bench) (positive : 0 < parameterBlockSize)
    (room : bench.pool.nextAddress < 2 ^ 64) {command : AdminCommand} {parameters : SlaParameters}
    (few : parameters.rings.length ≤ maxRings)
    (ordered : command ≠ .delete → parameters.tokens.committed ≤ parameters.tokens.peak)
    (kind : NodeKind) (node : NodeId) (service : Service) :
    Orderly (AdminChannel.sendIn command kind node service parameters
      ⟨bench.pool.nextAddress, parameterBlockSize⟩
      { bench with pool := bench.pool.push parameterBlockSize positive }).2 := by
  have above : 0 < bench.pool.nextAddress := by
    simp only [Pool.nextAddress, firstAddress]
    omega
  simp only [AdminChannel.sendIn]
  split
  · next written =>
    have held : ((bench.pool.push parameterBlockSize positive).overwriteBlock bench.pool.nextAddress 0
        parameters.encode).read bench.pool.nextAddress = some parameters.encode :=
      Pool.read_push_overwriteBlock (SlaParameters.length_encode parameters)
    rw [Action.bind_apply, fill_push (SlaParameters.length_encode parameters).le]
    apply (orderly.with_pool _).roundTrip
    intro given read _
    rw [AdminChannel.readParameters_slaRequest above room few held, Except.ok.injEq] at read
    exact ⟨parameters, read.symm, ordered written⟩
  · next deleted =>
    apply (orderly.with_pool _).roundTrip
    intro given _ sets
    rw [not_not] at deleted
    subst deleted
    rcases sets with other | other <;> cases other

theorem keepsOrder_sendSla {command : AdminCommand} {tokens : Tokens}
    (ordered : command ≠ .delete → tokens.committed ≤ tokens.peak) (node : NodeId) (service : Service)
    (rings : List Nat) : KeepsOrder (AdminChannel.sendSla command node service tokens rings) := by
  apply KeepsOrder.of
  intro bench orderly
  rcases AdminChannel.sendSla_cases (σ := Bench) command node service tokens rings with
    ⟨cause, refused⟩ | ⟨kind, ids, -, -, listed, lending⟩
  · rw [refused]
    exact orderly
  · have few : ids.length ≤ maxRings := by
      rcases AdminChannel.ringIds_eq_ok.1 listed with ⟨few, -, rfl⟩
      simpa using few
    have lends := withBlock_lends orderly.direct.limit_eq
      (AdminChannel.sendIn command kind node service ⟨tokens, ids⟩)
    rw [lending]
    generalize withBlock .parameters parameterBlockSize _ bench = finished at lends ⊢
    cases lends with
    | exhausted cause full => exact orderly
    | lent positive room ended =>
        have sent : Orderly (AdminChannel.sendIn command kind node service ⟨tokens, ids⟩
            ⟨bench.pool.nextAddress, parameterBlockSize⟩
            { bench with pool := bench.pool.push parameterBlockSize positive }).2 :=
          orderly.sendIn positive room few ordered kind node service
        rw [ended] at sent
        exact sent.with_pool _

end Bench

namespace Limiter

open Bench (Direct Orderly KeepsOrder Untouched)

variable {α π : Type}

theorem keepsOrder_applyCreate {plan : Tree.CreatePlan}
    (ordered : plan.tokens.committed ≤ plan.tokens.peak) : KeepsOrder (applyCreate plan) := by
  apply (Bench.keepsOrder_link _ _ _).free_bind
  intro _
  exact (Bench.keepsOrder_sendSla (fun _ => ordered) _ _ _).undoOnError (Bench.keepsOrder_unlink _ _)

theorem keepsOrder_applyUpdate {plan : Tree.UpdatePlan}
    (ordered : plan.tokens.committed ≤ plan.tokens.peak) : KeepsOrder (applyUpdate plan) := by
  have sends : KeepsOrder (AdminChannel.sendSla (σ := Bench) .update plan.id plan.sla.service
      plan.tokens plan.rings) := Bench.keepsOrder_sendSla (fun _ => ordered) _ _ _
  simp only [applyUpdate]
  split
  · split
    · exact sends
    · apply (Bench.keepsOrder_relink _ _).free_bind
      intro _
      exact sends.undoOnError (Bench.keepsOrder_relink _ _)
  · exact sends

theorem keepsOrder_applyDelete (plan : Tree.DeletePlan) : KeepsOrder (applyDelete plan) := by
  apply (Bench.keepsOrder_sendSla (fun kept => absurd rfl kept) _ _ _).free_bind
  intro _
  exact Bench.keepsOrder_unlink _ _

theorem carryOut_orderly {plan : Tree → Outcome π} {apply : π → Action Bench Unit}
    {commit : Tree → π → Tree} {result : π → α} {limiter : Limiter Bench}
    (keeps : ∀ planned, plan limiter.tree = .ok planned → KeepsOrder (apply planned))
    (orderly : Orderly limiter.device) :
    Orderly (carryOut plan apply commit result limiter).2.device := by
  have ended := carryOut_cases plan apply commit result limiter
  generalize carryOut plan apply commit result limiter = finished at ended ⊢
  cases ended with
  | refused planned => exact orderly
  | failed planned run =>
      have kept := (keeps _ planned limiter.device orderly).1
      rwa [run] at kept
  | done planned run =>
      have kept := (keeps _ planned limiter.device orderly).1
      rwa [run] at kept

theorem Call.orderly {limiter : Limiter Bench} (call : Call) (orderly : Orderly limiter.device) :
    Orderly (call.leaves limiter).device := by
  cases call with
  | createNode kind service =>
      simp only [leaves, Limiter.createNode, onTree_device]
      exact orderly
  | removeNode id kind =>
      simp only [leaves, Limiter.removeNode, onTree_device]
      exact orderly
  | createSla request =>
      apply carryOut_orderly _ orderly
      intro plan planned
      exact keepsOrder_applyCreate (Tree.ordered_of_planCreate planned)
  | updateSla request =>
      apply carryOut_orderly _ orderly
      intro plan planned
      exact keepsOrder_applyUpdate (Tree.ordered_of_planUpdate planned)
  | deleteSla id =>
      apply carryOut_orderly _ orderly
      intro plan _
      exact keepsOrder_applyDelete plan

theorem orderly_of_prepare {profile : Profile} {config : DeviceConfig} {bench ready : Bench}
    {tree : Tree} (untouched : Untouched bench) (prepared : prepare profile config bench = (.ok tree, ready)) :
    Orderly ready := by
  rcases prepare_eq_ok.1 prepared with ⟨-, -, -, reset, cleared, sent, first, second⟩
  have orderly : Orderly bench := ⟨untouched.direct, by simp [untouched.history_eq]⟩
  have after_reset : Orderly (AdminChannel.roundTrip (.bare .init) bench).2 := by
    apply orderly.roundTrip
    intro given _ sets
    rcases sets with other | other <;> cases other
  have sent_to : (AdminChannel.roundTrip (.bare .init) bench).2 = reset := congrArg Prod.snd sent
  rw [sent_to] at after_reset
  have no_bell : (0 : UInt32) ≠ 1 := by decide
  have first_only := ((Bench.write_total _ no_bell).of_ok first).2
  have second_only := ((Bench.write_total _ no_bell).of_ok second).2
  exact second_only.orderly (first_only.orderly after_reset)

/-- In every run on an untouched bench, only ordered agreements are put on record. -/
theorem Reachable.orderly {profile : Profile} {config : DeviceConfig} {limiter : Limiter Bench}
    (reached : Reachable profile config Untouched Injects limiter) : Orderly limiter.device := by
  refine reached.underway.keep (fun limiter => Orderly limiter.device) ?_ ?_ ?_
  · intro bench bare ready untouched prepared
    exact orderly_of_prepare untouched prepared
  · intro limiter call _ orderly
    exact call.orderly orderly
  · rintro limiter device ⟨failNext, rejectNext, rfl⟩ orderly
    exact ⟨orderly.direct.with_state _ _ _ _, orderly.ordered⟩

/-! ## Updates -/

/-- Whether the firmware has an entry for the node of an update before and after it, and no fewer tokens of
a rate that is not lowered. -/
def Raises (request : Sla) (limiter after : Limiter Bench) : Prop :=
  ∃ node sla before now, limiter.tree.nodes.find? request.id = some node ∧ node.sla = some sla ∧
    limiter.device.firmware.configured.lookup request.id.entryKey = some before ∧
    after.device.firmware.configured.lookup request.id.entryKey = some now ∧
    (sla.cir ≤ request.cir → before.tokens.committed ≤ now.tokens.committed) ∧
    (sla.pir ≤ max request.cir request.pir → before.tokens.peak ≤ now.tokens.peak)

theorem updateSla_raises {limiter after : Limiter Bench} {request : Sla}
    (sound : limiter.tree.WellFormed)
    (described : limiter.tree.DescribedBy limiter.device.firmware.configured)
    (described_after : after.tree.DescribedBy after.device.firmware.configured)
    (done : updateSla request limiter = (.ok (), after)) : Raises request limiter after := by
  rcases carryOut_eq_ok done with ⟨plan, planned, -, -, tree_eq⟩
  rcases Tree.planUpdate_accepted planned with ⟨node, accepted⟩
  have owns_after := accepted.owns_changed sound
  rw [tree_eq] at described_after
  rcases described.held _ _ _ accepted.owns with ⟨fewer, given, entry⟩
  rcases described_after.held _ _ _ owns_after with ⟨more, given_after, entry_after⟩
  rw [accepted.id_eq] at entry entry_after
  rw [accepted.sla_service] at given_after
  rcases Tokens.le_of_ofRates given given_after with ⟨committed, peak⟩
  rw [accepted.sla_cir] at committed
  rw [accepted.sla_pir] at peak
  have found := accepted.found
  rw [accepted.id_eq] at found
  exact ⟨node, plan.current, _, _, found, accepted.current_eq, entry, entry_after, committed, peak⟩

theorem Reachable.updateSla_raises {profile : Profile} {config : DeviceConfig}
    {limiter after : Limiter Bench} {request : Sla}
    (reached : Reachable profile config Direct Injects limiter)
    (done : updateSla request limiter = (.ok (), after)) : Raises request limiter after := by
  have later := reached.performed (.updateSla request)
  rw [Operation.run_updateSla, done] at later
  exact Limiter.updateSla_raises reached.wellFormed reached.agrees_always.described
    later.agrees_always.described done

/-- Tokens grow with the rate. So every accepted agreement has at least as many peak tokens as committed
ones, also on the record of the firmware, and an update never takes tokens of a rate that it raises. -/
theorem tokens_grow_with_rates (profile : Profile) (config : DeviceConfig) :
    (∀ service dimension rate higher most, rate ≤ higher →
      profile.tokensFor service dimension higher = .ok most →
        ∃ tokens, profile.tokensFor service dimension rate = .ok tokens ∧ tokens ≤ most) ∧
    (∀ (tree : Tree) (request : Sla),
      (∀ plan, tree.planCreate request = .ok plan → plan.tokens.committed ≤ plan.tokens.peak) ∧
      ∀ plan, tree.planUpdate request = .ok plan → plan.tokens.committed ≤ plan.tokens.peak) ∧
    (∀ limiter, Reachable profile config Untouched Injects limiter →
      ∀ record ∈ limiter.device.firmware.records, record.Ordered) ∧
    ∀ limiter after request, Reachable profile config Direct Injects limiter →
      updateSla request limiter = (.ok (), after) → Raises request limiter after := by
  refine ⟨?_, ?_, ?_, ?_⟩
  · intro service dimension rate higher most below computed
    rcases Profile.exists_tokensFor below computed with ⟨tokens, lower⟩
    exact ⟨tokens, lower, Profile.tokensFor_mono lower computed below⟩
  · intro tree request
    exact ⟨fun plan => Tree.ordered_of_planCreate, fun plan => Tree.ordered_of_planUpdate⟩
  · intro limiter reached record mem
    exact reached.orderly.ordered record (List.mem_reverse.1 mem)
  · intro limiter after request reached done
    exact reached.updateSla_raises done

/-- Half as much again for the first leaf. -/
def firstRaise : Sla := .update firstLeaf.node 1500 3000 none

/-- In a run on a fresh bench, an update of the first leaf is on record and leaves it no fewer tokens. -/
theorem tokens_grow_with_rates_on_bench :
    ∃ limiter after : Limiter Bench, ∃ record before now,
      Reachable Profile.gen4 smallConfig Untouched Injects limiter ∧
      updateSla firstRaise limiter = (.ok (), after) ∧
      record ∈ after.device.firmware.records ∧ record.request.command = .update ∧ record.Ordered ∧
      limiter.device.firmware.configured.lookup firstLeaf.node.entryKey = some before ∧
      after.device.firmware.configured.lookup firstLeaf.node.entryKey = some now ∧
      before.tokens.committed ≤ now.tokens.committed ∧ before.tokens.peak ≤ now.tokens.peak := by
  have passed : comesUp (fun limiter =>
      let raised := updateSla firstRaise (withFirstLeaf limiter)
      decide (raised.1 = .ok ()) &&
        (raised.2.device.firmware.records.any fun record => record.request.command == .update) &&
        ((withFirstLeaf limiter).tree.nodes.find? firstLeaf.node).all fun leaf =>
          leaf.sla.all fun sla => decide (sla.cir ≤ 1500 ∧ sla.pir ≤ 3000)) = true := by
    decide +kernel
  have untouched : Untouched Bench.fresh := ⟨⟨rfl, rfl, rfl⟩, rfl⟩
  rcases exists_start passed with ⟨tree, bench, up, result⟩
  simp only [Bool.and_eq_true, decide_eq_true_eq, Option.all_eq_true, List.any_eq_true,
    beq_iff_eq] at result
  rcases result with ⟨⟨done, record, listed, command_eq⟩, lower⟩
  have reached : Reachable Profile.gen4 smallConfig Untouched Injects (withFirstLeaf ⟨tree, bench⟩) :=
    .performed (.createSla firstLeaf) (.started untouched up)
  have later := reached.performed (.updateSla firstRaise)
  rw [Operation.run_updateSla] at later
  rcases tokens_grow_with_rates Profile.gen4 smallConfig with ⟨-, -, recorded, raises⟩
  rcases raises _ _ firstRaise (reached.mono (fun _ => Untouched.direct) fun _ _ => id) (Prod.ext done rfl) with
    ⟨node, sla, before, now, found, carried, entry, entry_after, committed, peak⟩
  rcases lower node found sla carried with ⟨cir_le, pir_le⟩
  exact ⟨_, _, record, before, now, reached, Prod.ext done rfl, listed, command_eq,
    recorded _ later record listed, entry, entry_after, committed cir_le, peak pir_le⟩

end Limiter

end RateTree
