import RateTree.Proofs.BenchDevice
import RateTree.Proofs.Tracing

/-!
# Memory from a pool

A device whose memory comes from a pool hands out what the pool hands out, perhaps in other sizes than were
asked for. An action is tidy if it leaves the pool with the blocks that it found there, however it ends. What
is lent is given back, so that tidiness carries over to what is done with a lent block; and so it comes from
the registers of a mailbox to its exchanges, and from everything on a bench to its transport.
-/

namespace RateTree

namespace Pool

/-- Two pools have blocks at the same addresses, and the second one has gone on from where the first one
was. -/
structure SameBlocks (before after : Pool) : Prop where
  addresses_eq : after.addresses = before.addresses
  next_le : before.nextAddress ≤ after.nextAddress

namespace SameBlocks

variable {before between after : Pool}

theorem refl (pool : Pool) : SameBlocks pool pool := ⟨rfl, Nat.le_refl _⟩

theorem trans (first : SameBlocks before between) (second : SameBlocks between after) :
    SameBlocks before after :=
  ⟨second.addresses_eq.trans first.addresses_eq, Nat.le_trans first.next_le second.next_le⟩

theorem outstanding_eq (same : SameBlocks before after) : after.outstanding = before.outstanding := by
  rw [outstanding_eq_length, outstanding_eq_length, same.addresses_eq]

theorem write (iova offset : Nat) (data : List UInt8) (pool : Pool) :
    SameBlocks pool (Pool.write iova offset data pool).2 := by
  rcases pool.addresses_write iova offset data with ⟨addresses_eq, next_eq⟩
  exact ⟨addresses_eq, by rw [nextAddress, nextAddress, next_eq]⟩

theorem free_push {size : Nat} {positive : 0 < size}
    (meanwhile : SameBlocks (before.push size positive) after) :
    SameBlocks before (after.free before.nextAddress) := by
  constructor
  · have pushed : (before.push size positive).addresses = before.nextAddress :: before.addresses :=
      rfl
    rw [addresses_free, meanwhile.addresses_eq, pushed, List.filter_cons_of_neg (by simp),
      List.filter_eq_self]
    -- The block was put above all others, so that its address is no other's.
    intro older mem
    simpa using Nat.ne_of_lt (lt_nextAddress mem)
  · have further := meanwhile.next_le
    change before.nextAddress ≤ after.nextAddress
    simp only [nextAddress, push] at further ⊢
    omega

end SameBlocks

/-- How handing out a block can end: the pool has the blocks it had, or a new one at the next address. -/
inductive Allocates (pool : Pool) : Outcome Block × Pool → Prop where
  | refused {failure : Failure} {after : Pool} (same : SameBlocks pool after) :
      Allocates pool (.error failure, after)
  | block {size : Nat} (positive : 0 < size) (room : pool.nextAddress < 2 ^ 64) :
      Allocates pool (.ok ⟨pool.nextAddress, size⟩, pool.push size positive)

theorem allocate_cases (pool : Pool) (size : Nat) : pool.Allocates (allocate size pool) := by
  have ended := allocate_allots pool size
  generalize allocate size pool = result at ended ⊢
  cases ended with
  | empty => exact .refused (.refl pool)
  | exhausted => exact .refused (.refl pool)
  | tooLarge => exact .refused ⟨rfl, nextAddress_le_reserve pool size⟩
  | block positive _ room => exact .block positive room

end Pool

/-- A device whose memory comes from a pool, in sizes of the device's own choice. -/
class PooledMemory (δ : Type) extends BlockMemory δ where
  pool : δ → Pool
  allocate_seen : ∀ (use : BlockUse) (size : Nat) (device : δ), ∃ granted,
    Pool.allocate granted (pool device) =
      ((BlockMemory.allocate use size device).1, pool (BlockMemory.allocate use size device).2)
  fill_seen : ∀ (block : Block) (bytes : List UInt8),
    Action.SeenAs pool (BlockMemory.fill block bytes) (Pool.write block.iova 0 bytes)
  pool_release : ∀ (block : Block) (device : δ),
    pool (BlockMemory.release block device) = (pool device).free block.iova

export PooledMemory (pool)

instance : PooledMemory Bench where
  pool := Bench.pool
  allocate_seen use size bench := ⟨bench.granted use size, rfl⟩
  fill_seen _ _ _ := rfl
  pool_release _ _ := rfl

/-- How lending a block can end: there is none, or the action runs with the block at the next address, which
is released after it. -/
inductive Lends {δ α : Type} [PooledMemory δ] (use : BlockUse) (size : Nat)
    (action : Block → Action δ α) (device : δ) : Outcome α × δ → Prop where
  | refused {failure : Failure} {after : δ}
      (allocated : BlockMemory.allocate use size device = (.error failure, after))
      (same : (pool device).SameBlocks (pool after)) :
      Lends use size action device (.error failure, after)
  | lent {granted : Nat} {positive : 0 < granted} {between : δ}
      (allocated : BlockMemory.allocate use size device =
        (.ok ⟨(pool device).nextAddress, granted⟩, between))
      (room : (pool device).nextAddress < 2 ^ 64)
      (pushed : pool between = (pool device).push granted positive) :
      Lends use size action device
        ((action ⟨(pool device).nextAddress, granted⟩ between).1,
          BlockMemory.release ⟨(pool device).nextAddress, granted⟩
            (action ⟨(pool device).nextAddress, granted⟩ between).2)

theorem withBlock_lends {δ α : Type} [PooledMemory δ] (use : BlockUse) (size : Nat)
    (action : Block → Action δ α) (device : δ) :
    Lends use size action device (withBlock use size action device) := by
  rcases PooledMemory.allocate_seen use size device with ⟨granted, seen⟩
  have ended := (pool device).allocate_cases granted
  rw [seen] at ended
  rcases allocated : BlockMemory.allocate use size device with ⟨outcome, after⟩
  rw [allocated] at ended
  simp only [withBlock, allocated]
  generalize pool_eq : pool after = between at ended
  cases ended with
  | refused same => exact .refused allocated (pool_eq ▸ same)
  | block positive room => exact .lent allocated room pool_eq

namespace AdminChannel

variable {σ : Type} [BlockMemory σ] [AdminTransport σ]

/-- Sends a command on an agreement whose parameters go into a block at hand. -/
def sendIn (command : AdminCommand) (kind : NodeKind) (node : NodeId) (service : Service)
    (parameters : SlaParameters) (block : Block) : Action σ Unit := do
  if command ≠ .delete then
    BlockMemory.fill block parameters.encode
  roundTrip (slaRequest command kind node service parameters.rings.length block.iova)

/-- A command on an agreement is refused out of hand, or sent in a block that is lent for it. -/
theorem sendSla_cases (command : AdminCommand) (node : NodeId) (service : Service) (tokens : Tokens)
    (rings : List Nat) :
    (∃ cause, ∀ state : σ,
      sendSla command node service tokens rings state = (.error (.error cause), state)) ∨
    ∃ kind ids, command ≠ .init ∧ node.kind? = some kind ∧ ringIds rings = .ok ids ∧
      ∀ state : σ, sendSla command node service tokens rings state =
        withBlock .parameters parameterBlockSize (sendIn command kind node service ⟨tokens, ids⟩)
          state := by
  by_cases reset : command = .init
  · exact .inl ⟨_, fun _ => by simp only [sendSla, if_pos reset]; rfl⟩
  · cases known : node.kind? with
    | none => exact .inl ⟨_, fun _ => by simp only [sendSla, if_neg reset, known]; rfl⟩
    | some kind =>
        cases listed : ringIds rings with
        | error cause =>
            exact .inl ⟨_, fun _ => by simp only [sendSla, if_neg reset, known, listed]; rfl⟩
        | ok ids =>
            refine .inr ⟨kind, ids, reset, rfl, rfl, fun _ => ?_⟩
            simp only [sendSla, if_neg reset, known, listed]
            rfl

end AdminChannel

/-! ## Tidy actions -/

/-- Whether an action leaves the blocks of the pool as they are, however it ends. -/
def Tidy {δ α : Type} [PooledMemory δ] (action : Action δ α) : Prop :=
  ∀ device, (pool device).SameBlocks (pool (action device).2)

namespace Tidy

variable {δ α β : Type} [PooledMemory δ]

theorem of_still {action : Action δ α} (still : ∀ device, (action device).2 = device) :
    Tidy action := by
  intro device
  rw [still]
  exact .refl _

theorem bind {action : Action δ α} {next : α → Action δ β} (first : Tidy action)
    (second : ∀ value, Tidy (next value)) : Tidy (action >>= next) := by
  intro device
  have kept := first device
  rw [Action.bind_apply]
  rcases acted : action device with ⟨failure | value, after⟩ <;> rw [acted] at kept
  · exact kept
  · exact kept.trans (second value after)

theorem mapError {action : Action δ α} (change : Error → Error) (first : Tidy action) :
    Tidy (action.mapError change) := by
  intro device
  have kept := first device
  simp only [Action.mapError]
  rcases acted : action device with ⟨(cause | cause) | value, after⟩ <;> rwa [acted] at kept

theorem fill (block : Block) (bytes : List UInt8) : Tidy (BlockMemory.fill (σ := δ) block bytes) := by
  intro device
  have written := Pool.SameBlocks.write block.iova 0 bytes (pool device)
  rwa [PooledMemory.fill_seen block bytes device] at written

/-- What is lent for a tidy action is given back. -/
theorem withBlock (use : BlockUse) (size : Nat) {action : Block → Action δ α}
    (inner : ∀ block, Tidy (action block)) : Tidy (withBlock use size action) := by
  intro device
  have ended := withBlock_lends use size action device
  generalize RateTree.withBlock use size action device = finished at ended ⊢
  cases ended with
  | refused allocated same => exact same
  | @lent granted positive between allocated room pushed =>
      have kept := inner ⟨(pool device).nextAddress, granted⟩ between
      rw [pushed] at kept
      rw [PooledMemory.pool_release]
      exact kept.free_push

section Mailbox

variable [RegisterAccess δ]

theorem awaitClear (reads : ∀ offset, Tidy (readRegister (σ := δ) offset)) (polls : Nat) :
    Tidy (Mailbox.awaitClear (σ := δ) polls) := by
  induction polls with
  | zero => exact of_still fun _ => rfl
  | succ polls ih =>
      intro device
      have kept := reads Mailbox.doorbell device
      rw [Mailbox.awaitClear]
      rcases read : readRegister Mailbox.doorbell device with ⟨failure | value, after⟩ <;>
        rw [read] at kept
      · exact kept
      · dsimp only
        split
        · exact kept
        · exact kept.trans (ih after)

/-- Where registers are tidy, an exchange through the mailbox is: its message area is given back after a
response, after a refusal, and when time runs out. -/
theorem exchange (reads : ∀ offset, Tidy (readRegister (σ := δ) offset))
    (writes : ∀ offset value, Tidy (writeRegister (σ := δ) offset value)) (limits : PollLimits)
    (request : AdminRequest) : Tidy (Mailbox.exchange (σ := δ) limits request) := by
  apply withBlock
  intro area
  apply (fill area _).bind
  intro _
  apply ((writes _ _).bind fun _ => (writes _ _).bind fun _ => writes _ _).bind
  intro _
  apply (awaitClear reads _).bind
  intro clear
  have answered : Tidy (do
      let state ← Action.get
      let response := Mailbox.responseIn request.command (BlockMemory.contents area state)
      (response : Except Error _) : Action δ AdminResponse) := of_still fun _ => rfl
  split
  · exact bind (of_still fun _ => rfl) fun _ => answered
  · exact answered

end Mailbox

section Channel

variable [AdminTransport δ] (exchanges : ∀ request, Tidy (AdminTransport.exchange (σ := δ) request))

include exchanges

theorem roundTrip (request : AdminRequest) : Tidy (AdminChannel.roundTrip (σ := δ) request) := by
  apply ((exchanges request).mapError _).bind
  intro response
  split
  · exact of_still fun _ => rfl
  · split <;> exact of_still fun _ => rfl

theorem sendSla (command : AdminCommand) (node : NodeId) (service : Service) (tokens : Tokens)
    (rings : List Nat) :
    Tidy (AdminChannel.sendSla (σ := δ) command node service tokens rings) := by
  rcases AdminChannel.sendSla_cases (σ := δ) command node service tokens rings with
    ⟨cause, refused⟩ | ⟨kind, ids, -, -, -, lending⟩
  · exact of_still fun device => by rw [refused]
  · have sent (block : Block) :
        Tidy (AdminChannel.sendIn (σ := δ) command kind node service ⟨tokens, ids⟩ block) := by
      simp only [AdminChannel.sendIn]
      split
      · exact (fill block _).bind fun _ => roundTrip exchanges _
      · exact roundTrip exchanges _
    intro device
    rw [lending]
    exact withBlock .parameters parameterBlockSize sent device

end Channel

end Tidy

namespace Bench

variable {before after : Bench}

theorem Frame.sameBlocks (frame : Frame before after) : before.pool.SameBlocks after.pool :=
  ⟨frame.addresses_eq, Nat.add_le_add_left frame.next_le _⟩

theorem tidy_readRegister (offset : Nat) : Tidy (readRegister (σ := Bench) offset) :=
  fun bench => (frame_readRegister offset bench).sameBlocks

/-- A written register may ring the bell, whose answer is written into a block that is there. -/
theorem tidy_writeRegister (offset : Nat) (value : UInt32) :
    Tidy (writeRegister (σ := Bench) offset value) := by
  intro bench
  simp only [writeRegister]
  split
  · next bell _ =>
    split
    · exact (frame_ring bell { bench with registers := bench.registers.write offset value }).sameBlocks
    · exact .refl _
  · exact .refl _

theorem tidy_deliver (request : AdminRequest) : Tidy (deliver request) := by
  intro bench
  rw [deliver]
  cases bench.carrier with
  | direct => exact (frame_onFirmware _ bench).sameBlocks
  | mailbox limits => exact Tidy.exchange tidy_readRegister tidy_writeRegister limits request bench

theorem tidy_send (request : AdminRequest) : Tidy (send request) := by
  refine Tidy.bind (fun _ => .refl _) fun _ => ?_
  refine Tidy.bind (.of_still fun _ => rfl) fun bench => ?_
  -- Only an undisturbed request and one whose response is lost get to the firmware.
  split
  · exact tidy_deliver request
  · exact .of_still fun _ => rfl
  · exact .of_still fun _ => rfl
  · exact .of_still fun _ => rfl
  · exact .of_still fun _ => rfl
  · exact (tidy_deliver request).bind fun _ => .of_still fun _ => rfl
  · exact .of_still fun _ => rfl
  · exact .of_still fun _ => rfl

end Bench

end RateTree
