import RateTree.Proofs.PooledMemory

/-!
# Who owns a parameter block

Every command on an agreement has a parameter block of its own. When a transport is handed the command, the
block that it names is in use, is none that an earlier command named, and holds the parameters of that very
command or nothing; and when the command has ended, however it did, the pool has the blocks that it had
before. All that is asked of the transport is that it is tidy.
-/

namespace RateTree

/-- A request at the moment that it is handed to a transport, with the pool as it is then. -/
structure Dispatch where
  request : AdminRequest
  pool : Pool

/-- The address that a request names for its block. -/
def Dispatch.address (dispatch : Dispatch) : Nat := dispatch.request.block.toNat

/-! ## Devices that keep a log -/

/-- A device, and what has been handed to its transport. -/
structure Logged (δ : Type) where
  device : δ
  log : List Dispatch

namespace Logged

variable {δ α : Type}

/-- Runs an action on the device under the log, which leaves nothing in it. -/
def unlogged (action : Action δ α) : Action (Logged δ) α :=
  Action.focus Logged.device (fun state device => { state with device }) action

instance [PooledMemory δ] : PooledMemory (Logged δ) where
  allocate use size := unlogged (BlockMemory.allocate use size)
  fill block bytes := unlogged (BlockMemory.fill block bytes)
  contents block state := BlockMemory.contents block state.device
  release block state := { state with device := BlockMemory.release block state.device }
  pool state := pool state.device
  allocate_seen use size state := PooledMemory.allocate_seen use size state.device
  fill_seen block bytes state := PooledMemory.fill_seen block bytes state.device
  pool_release block state := PooledMemory.pool_release block state.device

instance [PooledMemory δ] [AdminTransport δ] : AdminTransport (Logged δ) where
  exchange request := fun state =>
    let (outcome, after) := AdminTransport.exchange request state.device
    (outcome, ⟨after, state.log ++ [⟨request, pool state.device⟩]⟩)

variable [PooledMemory δ] [AdminTransport δ]

theorem relays : Relays (Logged.device (δ := δ)) where
  allocate _ _ _ := rfl
  fill _ _ _ := rfl
  release _ _ := rfl
  exchange _ _ := rfl

theorem tidy_exchange (exchanges : ∀ request, Tidy (AdminTransport.exchange (σ := δ) request))
    (request : AdminRequest) : Tidy (AdminTransport.exchange (σ := Logged δ) request) :=
  fun state => exchanges request state.device

theorem log_roundTrip (request : AdminRequest) (state : Logged δ) :
    (AdminChannel.roundTrip request state).2.log =
      state.log ++ [⟨request, pool state.device⟩] := by
  simp only [AdminChannel.roundTrip, Action.bind_apply, Action.mapError, AdminTransport.exchange]
  rcases AdminTransport.exchange request state.device with ⟨(cause | cause) | response, after⟩
  · rfl
  · rfl
  · dsimp only
    split
    · rfl
    · split <;> rfl

end Logged

/-! ## Calls -/

/-- What a channel to the firmware is used for. -/
inductive ChannelCall where
  | init
  | sla (command : AdminCommand) (node : NodeId) (service : Service) (tokens : Tokens)
    (rings : List Nat)
deriving DecidableEq

namespace ChannelCall

variable {δ : Type}

/-- Makes a call over the channel. -/
def perform [BlockMemory δ] [AdminTransport δ] : ChannelCall → Action δ Unit
  | .init => AdminChannel.sendInit
  | .sla command node service tokens rings =>
    AdminChannel.sendSla command node service tokens rings

/-- Whether a dispatch is one that a call may make on a pool: for a command on an agreement, it names a block
that is in use, that the pool had not handed out before the call, and that starts with the parameters of the
call, or is all zeros if the agreement is to be deleted. -/
def Owns (before : Pool) (dispatch : Dispatch) : ChannelCall → Prop
  | .init => dispatch.request = .bare .init
  | .sla command _ _ tokens rings =>
    dispatch.request.command = command ∧ command ≠ .init ∧
      before.nextAddress ≤ dispatch.address ∧
      ∃ bytes, dispatch.pool.read dispatch.address = some bytes ∧
        (command ≠ .delete → ∃ ids : List UInt16, ids.map UInt16.toNat = rings ∧
          SlaParameters.encode ⟨tokens, ids⟩ <+: bytes) ∧
        (command = .delete → ∀ byte ∈ bytes, byte = 0)

variable [PooledMemory δ] [AdminTransport δ]

theorem perform_seen (call : ChannelCall) :
    Action.SeenAs Logged.device (call.perform (δ := Logged δ)) call.perform := by
  cases call with
  | init => exact Logged.relays.roundTrip _
  | sla command node service tokens rings => exact Logged.relays.sendSla _ _ _ _ _

theorem tidy_perform (exchanges : ∀ request, Tidy (AdminTransport.exchange (σ := δ) request))
    (call : ChannelCall) : Tidy (call.perform (δ := δ)) := by
  cases call with
  | init => exact Tidy.roundTrip exchanges _
  | sla command node service tokens rings => exact Tidy.sendSla exchanges _ _ _ _ _

end ChannelCall

theorem AdminChannel.map_toNat_of_ringIds {rings : List Nat} {ids : List UInt16}
    (listed : ringIds rings = .ok ids) : ids.map UInt16.toNat = rings := by
  rcases ringIds_eq_ok.1 listed with ⟨-, small, rfl⟩
  rw [List.map_map]
  refine (List.map_congr_left fun ring mem => ?_).trans (List.map_id rings)
  exact Nat.mod_eq_of_lt (small ring mem)

namespace Pool

variable {pool after : Pool} {size : Nat} {positive : 0 < size} {bytes : List UInt8}

theorem read_push_of_write (written : write pool.nextAddress 0 bytes (pool.push size positive) =
    (.ok (), after)) : ∃ held, after.read pool.nextAddress = some held ∧ bytes <+: held := by
  rw [write, block?_push] at written
  dsimp only at written
  split at written
  · cases written
  · cases written
    refine ⟨_, read_overwriteBlock read_push, ?_⟩
    simp [overwrite]

theorem lt_nextAddress_of_read {address : Nat} (held : pool.read address = some bytes) :
    address < pool.nextAddress := by
  rcases Option.map_eq_some_iff.1 held with ⟨block, found, -⟩
  apply lt_nextAddress
  rw [← iova_of_block? found]
  exact List.mem_map_of_mem (List.mem_of_find?_eq_some found)

end Pool

namespace ChannelCall

variable {δ : Type} [PooledMemory δ] [AdminTransport δ] {device : δ}

/-- What a call hands to the transport of a device. -/
def dispatches (call : ChannelCall) (device : δ) : List Dispatch :=
  (call.perform (⟨device, []⟩ : Logged δ)).2.log

/-- What a call can hand to a transport, with the pool that it leaves: nothing, or one request that it may
make. -/
inductive HandsOver (call : ChannelCall) (before : Pool) : List Dispatch → Pool → Prop where
  | nothing {after : Pool} : HandsOver call before [] after
  | request {dispatch : Dispatch} {after : Pool} (owns : call.Owns before dispatch)
      (next_le : dispatch.pool.nextAddress ≤ after.nextAddress) :
      HandsOver call before [dispatch] after

/-- A request that is sent with a block at hand is handed over, whatever comes of it. -/
theorem handsOver_of_roundTrip
    (exchanges : ∀ request, Tidy (AdminTransport.exchange (σ := δ) request)) {call : ChannelCall}
    {before : Pool} {ready : Logged δ} {request : AdminRequest} (block : Block)
    (silent : ready.log = []) (owns : call.Owns before ⟨request, pool ready⟩) :
    call.HandsOver before (BlockMemory.release block (AdminChannel.roundTrip request ready).2).log
      (pool (BlockMemory.release block (AdminChannel.roundTrip request ready).2)) := by
  have kept := Tidy.roundTrip (Logged.tidy_exchange exchanges) request ready
  have handed := Logged.log_roundTrip request ready
  rw [silent, List.nil_append] at handed
  have logged : (BlockMemory.release block (AdminChannel.roundTrip request ready).2).log =
      [⟨request, pool ready⟩] := handed
  rw [logged, PooledMemory.pool_release]
  exact .request owns kept.next_le

theorem owns_of_read {before ready : Pool} {command : AdminCommand} (no_reset : command ≠ .init)
    (kind : NodeKind) (node : NodeId) (service : Service) {tokens : Tokens} {rings : List Nat}
    (count : Nat) (room : before.nextAddress < 2 ^ 64) {bytes : List UInt8}
    (held : ready.read before.nextAddress = some bytes)
    (given : command ≠ .delete → ∃ ids : List UInt16, ids.map UInt16.toNat = rings ∧
      SlaParameters.encode ⟨tokens, ids⟩ <+: bytes)
    (nothing : command = .delete → ∀ byte ∈ bytes, byte = 0) :
    (sla command node service tokens rings).Owns before
      ⟨AdminChannel.slaRequest command kind node service count before.nextAddress, ready⟩ := by
  have address : Dispatch.address
      ⟨AdminChannel.slaRequest command kind node service count before.nextAddress, ready⟩ =
        before.nextAddress := Nat.mod_eq_of_lt room
  rw [Owns, address]
  exact ⟨rfl, no_reset, Nat.le_refl _, bytes, held, given, nothing⟩

/-- A command that has a block at hand hands nothing over if the block does not take its parameters, and
otherwise its own request. -/
theorem handsOver_of_sendIn
    (exchanges : ∀ request, Tidy (AdminTransport.exchange (σ := δ) request)) {command : AdminCommand}
    (no_reset : command ≠ .init) (kind : NodeKind) (node : NodeId) (service : Service)
    (tokens : Tokens) {rings : List Nat} {ids : List UInt16}
    (listed : AdminChannel.ringIds rings = .ok ids) {before : Pool} {granted : Nat}
    {positive : 0 < granted} {between : Logged δ} (silent : between.log = [])
    (room : before.nextAddress < 2 ^ 64) (pushed : pool between = before.push granted positive) :
    let block : Block := ⟨before.nextAddress, granted⟩
    let after := BlockMemory.release block
      (AdminChannel.sendIn command kind node service ⟨tokens, ids⟩ block between).2
    (sla command node service tokens rings).HandsOver before after.log (pool after) := by
  by_cases deleted : command = .delete
  · -- Nothing is written for a deletion, so that the block is as the pool gave it.
    have held : (pool between).read before.nextAddress = some (Bytes.zeros granted) := by
      rw [pushed]
      exact Pool.read_push
    simp only [AdminChannel.sendIn, deleted, ne_eq, not_true, if_false]
    refine handsOver_of_roundTrip exchanges _ silent
      (owns_of_read (by decide) kind node service ids.length room held ?_ ?_)
    · intro kept
      exact absurd rfl kept
    · intro _ byte mem
      exact List.eq_of_mem_replicate mem
  · have seen := PooledMemory.fill_seen ⟨before.nextAddress, granted⟩
      (SlaParameters.encode ⟨tokens, ids⟩) between
    have unlogged : (BlockMemory.fill ⟨before.nextAddress, granted⟩
        (SlaParameters.encode ⟨tokens, ids⟩) between).2.log = [] := silent
    simp only [AdminChannel.sendIn, deleted, ne_eq, not_false_eq_true, if_true, Action.bind_apply]
    rcases filled : BlockMemory.fill ⟨before.nextAddress, granted⟩
        (SlaParameters.encode ⟨tokens, ids⟩) between with ⟨failure | ⟨⟩, written⟩ <;>
      rw [filled] at seen unlogged
    · -- The block was cut too short for the parameters.
      have same : (BlockMemory.release ⟨before.nextAddress, granted⟩ written).log = [] := unlogged
      rw [same]
      exact .nothing
    · rw [pushed] at seen
      rcases Pool.read_push_of_write seen with ⟨bytes, held, starts⟩
      refine handsOver_of_roundTrip exchanges _ unlogged
        (owns_of_read no_reset kind node service ids.length room held ?_ ?_)
      · intro _
        exact ⟨ids, AdminChannel.map_toNat_of_ringIds listed, starts⟩
      · intro again
        exact absurd again deleted

theorem handsOver (exchanges : ∀ request, Tidy (AdminTransport.exchange (σ := δ) request))
    (call : ChannelCall) (device : δ) :
    call.HandsOver (pool device) (call.dispatches device)
      (pool (call.perform (⟨device, []⟩ : Logged δ)).2) := by
  cases call with
  | init =>
      have handed := Logged.log_roundTrip (.bare .init) (⟨device, []⟩ : Logged δ)
      have kept := Tidy.roundTrip (Logged.tidy_exchange exchanges) (.bare .init) ⟨device, []⟩
      have logged : dispatches .init device = [⟨.bare .init, pool device⟩] := handed
      rw [logged]
      exact .request rfl kept.next_le
  | sla command node service tokens rings =>
      rw [dispatches, perform]
      rcases AdminChannel.sendSla_cases (σ := Logged δ) command node service tokens rings with
        ⟨cause, refused⟩ | ⟨kind, ids, no_reset, -, listed, lending⟩
      · rw [refused]
        exact .nothing
      · have lends := withBlock_lends .parameters parameterBlockSize
          (AdminChannel.sendIn command kind node service ⟨tokens, ids⟩) (⟨device, []⟩ : Logged δ)
        rw [lending]
        generalize withBlock (σ := Logged δ) _ _ _ _ = finished at lends ⊢
        cases lends with
        | @refused failure after allocated same =>
            have silent : after.log = [] :=
              (congrArg (fun result => result.2.log) allocated).symm
            rw [silent]
            exact .nothing
        | @lent granted positive between allocated room pushed =>
            have silent : between.log = [] :=
              (congrArg (fun result => result.2.log) allocated).symm
            exact handsOver_of_sendIn exchanges no_reset kind node service tokens listed silent room
              pushed

end ChannelCall

/-! ## Dialogues -/

/-- A call, and the device that it is made on. -/
structure Turn (δ : Type) where
  call : ChannelCall
  before : δ

section Dialogue

variable {δ : Type} [PooledMemory δ] [AdminTransport δ]

namespace Turn

/-- The device after a turn. -/
def after (turn : Turn δ) : δ := (turn.call.perform turn.before).2

/-- A turn on the logged device. -/
def logged (turn : Turn δ) : Outcome Unit × Logged δ := turn.call.perform ⟨turn.before, []⟩

/-- The requests that were sent in a turn. -/
def dispatches (turn : Turn δ) : List Dispatch := turn.logged.2.log

end Turn

/-- The turns that a device has taken, in order, and the device that they have led to. In between it may
change in every way that leaves the blocks of its pool in use. -/
inductive Dialogue (start : δ) : List (Turn δ) → δ → Prop where
  | opened : Dialogue start [] start
  | called {turns : List (Turn δ)} {device : δ} (call : ChannelCall)
      (before : Dialogue start turns device) :
      Dialogue start (turns ++ [⟨call, device⟩]) (call.perform device).2
  | moved {turns : List (Turn δ)} {device other : δ} (before : Dialogue start turns device)
      (same : (pool device).SameBlocks (pool other)) : Dialogue start turns other

/-- What turns hand to the transport for commands on agreements, in order. -/
def slaDispatches (turns : List (Turn δ)) : List Dispatch :=
  (turns.flatMap Turn.dispatches).filter fun dispatch => dispatch.request.command ≠ .init

/-- Whether every turn uses blocks of its own and gives back what it took. -/
structure OwnBlocks (turns : List (Turn δ)) : Prop where
  /-- The log says what happens without it. -/
  unchanged : ∀ turn ∈ turns,
    turn.call.perform turn.before = (turn.logged.1, turn.logged.2.device)
  balanced : ∀ turn ∈ turns, (pool turn.after).outstanding = (pool turn.before).outstanding
  owned : ∀ turn ∈ turns, ∀ dispatch ∈ turn.dispatches,
    turn.call.Owns (pool turn.before) dispatch
  never_reused : (slaDispatches turns).Pairwise fun earlier later => earlier.address < later.address

variable (exchanges : ∀ request, Tidy (AdminTransport.exchange (σ := δ) request))

include exchanges

theorem Turn.handsOver (turn : Turn δ) :
    turn.call.HandsOver (pool turn.before) turn.dispatches (pool turn.after) := by
  have handed := turn.call.handsOver exchanges turn.before
  have same := congrArg Prod.snd (turn.call.perform_seen ⟨turn.before, []⟩)
  rw [Turn.after, same]
  exact handed

theorem Turn.owned (turn : Turn δ) {dispatch : Dispatch} (mem : dispatch ∈ turn.dispatches) :
    turn.call.Owns (pool turn.before) dispatch := by
  have handed := turn.handsOver exchanges
  generalize turn.dispatches = dispatches at mem handed
  cases handed with
  | nothing => cases mem
  | request owns next_le =>
      rw [List.mem_singleton] at mem
      exact mem ▸ owns

/-- A turn names one block at most, at an address that the pool gives during the turn. -/
theorem Turn.ordered (turn : Turn δ) :
    (slaDispatches [turn]).Pairwise (fun earlier later => earlier.address < later.address) ∧
      ∀ dispatch ∈ slaDispatches [turn], (pool turn.before).nextAddress ≤ dispatch.address ∧
        dispatch.address < (pool turn.after).nextAddress := by
  have handed := turn.handsOver exchanges
  rw [slaDispatches, List.flatMap_singleton]
  generalize turn.dispatches = dispatches at handed ⊢
  generalize pool turn.after = later at handed ⊢
  cases handed with
  | nothing => exact ⟨.nil, by simp⟩
  | @request only _ owns next_le =>
      refine ⟨(List.pairwise_singleton _ only).filter _, ?_⟩
      intro dispatch mem
      simp only [List.mem_filter, List.mem_singleton, decide_eq_true_eq] at mem
      rcases mem with ⟨rfl, no_reset⟩
      cases call : turn.call with
      | init =>
          rw [call] at owns
          rw [show dispatch.request = .bare .init from owns] at no_reset
          exact absurd rfl no_reset
      | sla command node service tokens rings =>
          rw [call] at owns
          rcases owns with ⟨-, -, fresh, bytes, held, -⟩
          exact ⟨fresh, Nat.lt_of_lt_of_le (Pool.lt_nextAddress_of_read held) next_le⟩

theorem Dialogue.ordered {start device : δ} {turns : List (Turn δ)}
    (dialogue : Dialogue start turns device) :
    (slaDispatches turns).Pairwise (fun earlier later => earlier.address < later.address) ∧
      ∀ dispatch ∈ slaDispatches turns, dispatch.address < (pool device).nextAddress := by
  -- That the pool has gone past every address named so far is what puts the next one above them all.
  induction dialogue with
  | opened => exact ⟨.nil, by simp [slaDispatches]⟩
  | @called turns device call before ih =>
      rcases ih with ⟨sorted, below⟩
      rcases Turn.ordered exchanges ⟨call, device⟩ with ⟨sorted_new, bounds⟩
      have further := (call.tidy_perform exchanges device).next_le
      have parts : slaDispatches (turns ++ [⟨call, device⟩]) =
          slaDispatches turns ++ slaDispatches [⟨call, device⟩] := by
        simp only [slaDispatches, List.flatMap_append, List.filter_append]
      rw [parts]
      constructor
      · refine List.pairwise_append.2 ⟨sorted, sorted_new, ?_⟩
        intro earlier earlier_mem later later_mem
        exact Nat.lt_of_lt_of_le (below earlier earlier_mem) (bounds later later_mem).1
      · intro dispatch mem
        rcases List.mem_append.1 mem with old | new
        · exact Nat.lt_of_lt_of_le (below dispatch old) further
        · exact (bounds dispatch new).2
  | moved before same ih =>
      exact ⟨ih.1, fun dispatch mem => Nat.lt_of_lt_of_le (ih.2 dispatch mem) same.next_le⟩

theorem Dialogue.ownBlocks {start device : δ} {turns : List (Turn δ)}
    (dialogue : Dialogue start turns device) : OwnBlocks turns where
  unchanged turn _ := turn.call.perform_seen ⟨turn.before, []⟩
  balanced turn _ := (turn.call.tidy_perform exchanges turn.before).outstanding_eq
  owned turn _ _ mem := turn.owned exchanges mem
  never_reused := (dialogue.ordered exchanges).1

theorem Dialogue.sameBlocks {start device : δ} {turns : List (Turn δ)}
    (dialogue : Dialogue start turns device) : (pool start).SameBlocks (pool device) := by
  induction dialogue with
  | opened => exact .refl _
  | called call before ih => exact ih.trans (call.tidy_perform exchanges _)
  | moved before same ih => exact ih.trans same

end Dialogue

/-- The transport of a bench is tidy, direct or through the mailbox and whatever befalls a request; so is a
mailbox over any tidy registers; and over every tidy transport, each call gives back what it took, and each
command on an agreement names a block of its own with the parameters of that command. -/
theorem parameter_blocks_are_owned :
    (∀ request, Tidy (AdminTransport.exchange (σ := Bench) request)) ∧
    (∀ (δ : Type) [PooledMemory δ] [RegisterAccess δ],
      (∀ offset, Tidy (readRegister (σ := δ) offset)) →
      (∀ offset value, Tidy (writeRegister (σ := δ) offset value)) →
      ∀ limits request, Tidy (Mailbox.exchange (σ := δ) limits request)) ∧
    ∀ (δ : Type) [PooledMemory δ] [AdminTransport δ],
      (∀ request, Tidy (AdminTransport.exchange (σ := δ) request)) →
      ∀ (start device : δ) turns, Dialogue start turns device →
        OwnBlocks turns ∧ (pool device).outstanding = (pool start).outstanding := by
  refine ⟨Bench.tidy_send, ?_, ?_⟩
  · intro δ _ _ reads writes
    exact Tidy.exchange reads writes
  · intro δ _ _ exchanges start device turns dialogue
    exact ⟨dialogue.ownBlocks exchanges, (dialogue.sameBlocks exchanges).outstanding_eq⟩

/-- A device behind a mailbox whose second request is not answered in time and whose third response is
lost. -/
def unreliableBench : Bench :=
  { Bench.fresh with
    carrier := .mailbox ⟨3, 64, 100⟩
    bell := some { delay := 1, silent := false, answer := none, delays := [0, 9] }
    faults := [(3, .responseLost)] }

/-- On such a device, an agreement is added three times and deleted: every command had a block of its own, and
none is left. -/
theorem parameter_blocks_are_owned_on_bench :
    Tidy (Mailbox.exchange (σ := Bench) ⟨3, 64, 100⟩ (.bare .init)) ∧
    ∃ bench turns, Dialogue unreliableBench turns bench ∧ OwnBlocks turns ∧
      (slaDispatches turns).length = 4 ∧ bench.pool.outstanding = 0 := by
  rcases parameter_blocks_are_owned with ⟨tidy, mailbox, owned⟩
  have silence : Dialogue unreliableBench [] unreliableBench := .opened
  have dialogue := Dialogue.called (.sla .delete (.ofSlot .leaf 0) .sym .zero [4])
    (.called (.sla .add (.ofSlot .leaf 0) .sym .zero [4])
      (.called (.sla .add (.ofSlot .leaf 0) .sym .zero [4])
        (.called (.sla .add (.ofSlot .leaf 0) .sym .zero [4]) (.called .init silence))))
  rcases owned Bench tidy _ _ _ dialogue with ⟨own, back⟩
  exact ⟨mailbox Bench Bench.tidy_readRegister Bench.tidy_writeRegister _ _, _, _, dialogue, own,
    by decide +kernel, back⟩

end RateTree
