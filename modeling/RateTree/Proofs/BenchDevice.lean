import RateTree.Bench
import RateTree.Proofs.LinkedDevice
import RateTree.Proofs.Pools
import RateTree.Proofs.Programming

/-!
# The bench as a linked device

The simulated device meets what a limiter relies on, whether its firmware is reached directly or
through the mailbox, whatever befalls the requests and however its bell answers. Its only fault is
that the addresses of its memory run out. The mailbox registers are none of the link registers, and
the message area of an exchange is taken and given back around the blocks that are handed out.
-/

namespace RateTree

namespace Bench

variable {α β : Type}

instance : DeviceView Bench where
  register bench offset := bench.registers.read offset
  outstanding bench := bench.pool.outstanding
  lent bench block := block.iova ∈ bench.pool.addresses
  intact bench := bench.pool.nextAddress < 2 ^ 64

/-- What stays as it is while a request is exchanged. -/
structure Frame (before after : Bench) : Prop where
  links : SameLinks before after
  addresses_eq : after.pool.addresses = before.pool.addresses
  next_le : before.pool.next ≤ after.pool.next

namespace Frame

variable {before between after : Bench}

theorem refl (bench : Bench) : Frame bench bench := ⟨fun _ _ _ => rfl, rfl, Nat.le_refl _⟩

theorem trans (first : Frame before between) (second : Frame between after) :
    Frame before after where
  links table index inside := (second.links table index inside).trans (first.links table index inside)
  addresses_eq := second.addresses_eq.trans first.addresses_eq
  next_le := Nat.le_trans first.next_le second.next_le

theorem was_intact (frame : Frame before after) (still : intact after) : intact before := by
  have := frame.next_le
  simp only [intact, Pool.nextAddress] at still ⊢
  omega

theorem keeps (frame : Frame before after) : Keeps before after where
  links := frame.links
  outstanding_eq := by
    simp only [outstanding, Pool.outstanding_eq_length, frame.addresses_eq]
  lent_still block mem := by
    simp only [lent, frame.addresses_eq]
    exact mem

end Frame

/-- Work on the firmware that never ends in a fault. -/
theorem onFirmware_total {action : Action Firmware α} {bench : Bench}
    {done : α → Firmware → Prop} {refused : Firmware → Prop}
    (ends : Action.Ensures (fun _ => True) action bench.firmware done refused) :
    Action.Ensures (fun _ => True) (onFirmware action) bench
      (fun value after => ∃ firmware, after = { bench with firmware } ∧ done value firmware)
      fun after => ∃ firmware, after = { bench with firmware } ∧ refused firmware := by
  simp only [Action.Ensures, onFirmware, Action.focus]
  rcases run : action bench.firmware with ⟨(cause | cause) | value, firmware⟩
  · exact ⟨id, firmware, rfl, (ends.of_error run).2⟩
  · exact absurd trivial (ends.of_fault run)
  · exact ⟨id, firmware, rfl, (ends.of_ok run).2⟩

theorem onFirmware_ensures {action : Action Firmware α} {bench : Bench}
    {done : α → Firmware → Prop} {refused : Firmware → Prop}
    (ends : Action.Ensures (fun _ => True) action bench.firmware done refused) :
    Action.Ensures intact (onFirmware action) bench
      (fun value after => ∃ firmware, after = { bench with firmware } ∧ done value firmware)
      fun after => ∃ firmware, after = { bench with firmware } ∧ refused firmware := by
  apply (onFirmware_total ends).of_total
  · rintro _ _ ⟨firmware, rfl, -⟩ still
    exact still
  · rintro _ ⟨firmware, rfl, -⟩ still
    exact still

/-- Whether an action changes nothing that a frame keeps, except that it may end in a fault when the
addresses have run out. -/
def Quiet (action : Action Bench α) : Prop :=
  ∀ bench, Action.Ensures intact action bench (fun _ => Frame bench) (Frame bench)

namespace Quiet

theorem pure (value : α) : Quiet (Pure.pure value) := fun bench => .pure (.refl bench)

theorem refuse (cause : Error) : Quiet (Action.refuse cause : Action Bench α) :=
  fun bench => .refuse (.refl bench)

theorem check (checked : Except Error α) : Quiet (liftM checked) := by
  intro bench
  refine (Action.Ensures.check (.refl bench)).weaken ?_ fun _ frame => frame
  rintro _ _ ⟨-, rfl⟩
  exact .refl _

theorem get : Quiet Action.get := fun bench => ⟨id, .refl bench⟩

theorem modify {change : Bench → Bench} (frame : ∀ bench, Frame bench (change bench)) :
    Quiet (Action.modify change) := fun bench => ⟨(frame bench).was_intact, frame bench⟩

theorem bind {action : Action Bench α} {next : α → Action Bench β} (first : Quiet action)
    (second : ∀ value, Quiet (next value)) : Quiet (action >>= next) := by
  intro bench
  apply (first bench).bind
  intro value after frame
  exact (second value after).weaken (fun _ _ later => frame.trans later) fun _ later =>
    frame.trans later

theorem of_frame {action : Action Bench α} (frame : ∀ bench, Frame bench (action bench).2)
    (ends : ∀ bench cause, (action bench).1 ≠ .error (.fault cause)) : Quiet action := by
  intro bench
  have kept := frame bench
  have ended := ends bench
  rw [Action.Ensures]
  generalize action bench = finished at kept ended ⊢
  rcases finished with ⟨(cause | cause) | value, after⟩
  · exact ⟨kept.was_intact, kept⟩
  · exact absurd rfl (ended cause)
  · exact ⟨kept.was_intact, kept⟩

theorem onFirmware {action : Action Firmware α} {done : Firmware → α → Firmware → Prop}
    {refused : Firmware → Firmware → Prop}
    (ends : ∀ firmware, Action.Ensures (fun _ => True) action firmware (done firmware)
      (refused firmware)) : Quiet (Bench.onFirmware action) := by
  intro bench
  refine (onFirmware_ensures (ends bench.firmware)).weaken ?_ ?_
  · rintro _ _ ⟨firmware, rfl, -⟩
    exact ⟨fun _ _ _ => rfl, rfl, Nat.le_refl _⟩
  · rintro _ ⟨firmware, rfl, -⟩
    exact ⟨fun _ _ _ => rfl, rfl, Nat.le_refl _⟩

end Quiet

theorem frame_onFirmware (action : Action Firmware α) (bench : Bench) :
    Frame bench (onFirmware action bench).2 := ⟨fun _ _ _ => rfl, rfl, Nat.le_refl _⟩

theorem frame_write (iova offset : Nat) (data : List UInt8) (bench : Bench) :
    Frame bench (onPool (Pool.write iova offset data) bench).2 := by
  rcases bench.pool.addresses_write iova offset data with ⟨addresses_eq, next_eq⟩
  exact ⟨fun _ _ _ => rfl, addresses_eq, Nat.le_of_eq next_eq.symm⟩

theorem write_ne_fault (iova offset : Nat) (data : List UInt8) (pool : Pool) (cause : Fault) :
    (Pool.write iova offset data pool).1 ≠ .error (.fault cause) := by
  simp only [Pool.write]
  split
  · simp
  · split <;> simp

theorem quiet_fill (block : Block) (bytes : List UInt8) :
    Quiet (BlockMemory.fill block bytes : Action Bench Unit) :=
  .of_frame (fun bench => frame_write block.iova 0 bytes bench)
    fun bench cause => write_ne_fault block.iova 0 bytes bench.pool cause

/-! ## The mailbox -/

theorem frame_respond (bell : Bell) (request : AdminRequest) (bench : Bench) :
    Frame bench (respond bell request bench).2 := by
  simp only [respond]
  split
  · exact .refl bench
  · have frame := frame_onFirmware (Firmware.serve bench.pool.read request) bench
    split <;> next served =>
      rw [served] at frame
      exact frame

theorem frame_ring (bell : Bell) (bench : Bench) : Frame bench (ring bell bench) := by
  have rung : Frame bench { bench with pending := bell.nextDelay, bell := some bell.rung } :=
    ⟨fun _ _ _ => rfl, rfl, Nat.le_refl _⟩
  simp only [ring]
  split
  · exact rung
  · split
    · next request _ =>
      have responded := frame_respond bell request
        { bench with pending := bell.nextDelay, bell := some bell.rung }
      exact rung.trans (responded.trans (frame_write _ _ _ _))
    · exact rung

/-- A link register is none of the mailbox registers. -/
theorem offset_ne_mailbox {table : LinkTable} {index : Nat} (inside : index < table.extent) :
    table.offset index ≠ Mailbox.doorbell ∧ table.offset index ≠ Mailbox.areaLow ∧
      table.offset index ≠ Mailbox.areaHigh := by
  cases table <;> simp only [LinkTable.extent, LinkTable.offset, LinkTable.base, Mailbox.doorbell,
    Mailbox.areaLow, Mailbox.areaHigh] at inside ⊢ <;> omega

/-- A write to a register that is no link register. -/
theorem frame_writeRegister {offset : Nat} (value : UInt32)
    (elsewhere : ∀ (table : LinkTable) index, index < table.extent → table.offset index ≠ offset)
    (bench : Bench) : Frame bench (writeRegister offset value bench).2 := by
  have written : Frame bench { bench with registers := bench.registers.write offset value } := by
    refine ⟨?_, rfl, Nat.le_refl _⟩
    intro table index inside
    simp only [linkEntry, register]
    rw [RegisterFile.read_write, if_neg (elsewhere table index inside)]
  simp only [writeRegister]
  split
  · split
    · exact written.trans (frame_ring _ _)
    · exact written
  · exact written

theorem writeRegister_ne_fault (offset : Nat) (value : UInt32) (bench : Bench) :
    (writeRegister offset value bench).1 = .ok () := by
  simp only [writeRegister]
  split
  · split <;> rfl
  · rfl

theorem quiet_writeRegister {offset : Nat} (value : UInt32)
    (elsewhere : ∀ (table : LinkTable) index, index < table.extent → table.offset index ≠ offset) :
    Quiet (writeRegister offset value : Action Bench Unit) :=
  .of_frame (frame_writeRegister value elsewhere) fun bench cause => by
    rw [writeRegister_ne_fault]
    simp

theorem quiet_post (iova : Nat) : Quiet (Mailbox.post iova) := by
  apply (quiet_writeRegister _ fun table index inside => (offset_ne_mailbox inside).2.1).bind
  intro _
  apply (quiet_writeRegister _ fun table index inside => (offset_ne_mailbox inside).2.2).bind
  intro _
  exact quiet_writeRegister _ fun table index inside => (offset_ne_mailbox inside).1

theorem frame_readDoorbell (bell : Bell) (bench : Bench) :
    Frame bench (readDoorbell bell bench).2 := by
  simp only [readDoorbell]
  split
  · exact .refl bench
  · split
    · refine ⟨?_, rfl, Nat.le_refl _⟩
      intro table index inside
      simp only [linkEntry, register]
      rw [RegisterFile.read_poke, if_neg (offset_ne_mailbox inside).1]
    · exact ⟨fun _ _ _ => rfl, rfl, Nat.le_refl _⟩

theorem frame_readRegister (offset : Nat) (bench : Bench) :
    Frame bench (readRegister offset bench).2 := by
  simp only [readRegister]
  split
  · split
    · exact frame_readDoorbell _ bench
    · exact .refl bench
  · exact .refl bench

theorem quiet_readRegister (offset : Nat) : Quiet (readRegister offset : Action Bench UInt32) := by
  refine .of_frame (frame_readRegister offset) ?_
  intro bench cause
  simp only [readRegister]
  split
  · split <;> simp
  · simp

theorem awaitClear_succ (polls : Nat) :
    (Mailbox.awaitClear (polls + 1) : Action Bench Bool) =
      readRegister Mailbox.doorbell >>= fun value =>
        if value = 0 then pure true else Mailbox.awaitClear polls := by
  funext bench
  rw [Mailbox.awaitClear, Action.bind_apply]
  rcases readRegister Mailbox.doorbell bench with ⟨failure | value, after⟩
  · rfl
  · by_cases clear : value = 0
    · simp [clear]
    · simp [clear]

theorem quiet_awaitClear (polls : Nat) : Quiet (Mailbox.awaitClear polls) := by
  induction polls with
  | zero => exact .pure false
  | succ polls ih =>
      rw [awaitClear_succ]
      apply (quiet_readRegister _).bind
      intro value
      split
      · exact .pure true
      · exact ih

/-! ## Blocks -/

theorem allocate_ensures (use : BlockUse) {size : Nat} (small : size ≤ pageSize) (bench : Bench) :
    Action.Ensures intact (BlockMemory.allocate use size) bench
      (fun block after => SameLinks bench after ∧ bench.pool.next ≤ after.pool.next ∧
        block.iova = bench.pool.nextAddress ∧
        after.pool.addresses = block.iova :: bench.pool.addresses)
      (Frame bench) := by
  have granted : bench.granted use size ≤ size := by
    simp only [Bench.granted]
    split
    · exact Nat.min_le_left _ _
    · exact Nat.le_refl _
  have ended := bench.pool.allocate_small (Nat.le_trans granted small)
  simp only [Action.Ensures, BlockMemory.allocate, onPool, Action.focus]
  generalize Pool.allocate (bench.granted use size) bench.pool = finished at ended
  cases ended with
  | empty nothing => exact ⟨id, .refl bench⟩
  | exhausted cause full => exact Nat.not_lt.2 full
  | block positive room =>
      refine ⟨?_, fun _ _ _ => rfl, Nat.le_add_right _ _, rfl, rfl⟩
      simp only [intact, Pool.nextAddress, Pool.push]
      omega

/-- A block that is lent for a quiet action leaves no trace. -/
theorem quiet_withBlock (use : BlockUse) {size : Nat} (small : size ≤ pageSize)
    {action : Block → Action Bench α} (inner : ∀ block, Quiet (action block)) :
    Quiet (withBlock use size action) := by
  intro bench
  have allocating := allocate_ensures use small bench
  rcases allocated : BlockMemory.allocate use size bench with ⟨(cause | cause) | block, between⟩
  · simp only [Action.Ensures, withBlock, allocated]
    exact allocating.of_error allocated
  · simp only [Action.Ensures, withBlock, allocated]
    exact allocating.of_fault allocated
  · rcases allocating.of_ok allocated with ⟨still, links, next_le, address, addresses⟩
    have acting := inner block between
    have back : ∀ after, Frame between after → Frame bench (BlockMemory.release block after) := by
      intro after frame
      refine ⟨?_, ?_, Nat.le_trans next_le frame.next_le⟩
      · intro table index inside
        exact (frame.links table index inside).trans (links table index inside)
      · change (after.pool.free block.iova).addresses = bench.pool.addresses
        rw [Pool.addresses_free, frame.addresses_eq, addresses, address]
        simp only [List.filter_cons, bne_self_eq_false, Bool.false_eq_true, if_false]
        rw [List.filter_eq_self]
        intro older mem
        have below := bench.pool.lt_nextAddress mem
        simpa using Nat.ne_of_lt below
    rcases acted : action block between with ⟨(cause | cause) | value, after⟩
    · rcases acting.of_error acted with ⟨-, frame⟩
      simp only [Action.Ensures, withBlock, allocated, acted]
      exact ⟨(back after frame).was_intact, back after frame⟩
    · have broken := acting.of_fault acted
      simp only [Action.Ensures, withBlock, allocated, acted]
      exact broken
    · rcases acting.of_ok acted with ⟨-, frame⟩
      simp only [Action.Ensures, withBlock, allocated, acted]
      exact ⟨(back after frame).was_intact, back after frame⟩

/-- An exchange through the mailbox takes its message area and gives it back. -/
theorem quiet_exchange (limits : PollLimits) (request : AdminRequest) :
    Quiet (Mailbox.exchange limits request) := by
  apply quiet_withBlock .message (by decide)
  intro area
  refine (quiet_fill _ _).bind fun _ => (quiet_post _).bind fun _ => ?_
  refine (quiet_awaitClear _).bind ?_
  intro clear
  split
  · exact Quiet.bind (.refuse _) fun _ => .bind .get fun _ => .check _
  · exact .bind .get fun _ => .check _

/-! ## Requests -/

theorem quiet_deliver (request : AdminRequest) : Quiet (deliver request) := by
  intro bench
  rw [Action.Ensures, deliver]
  cases bench.carrier with
  | direct =>
      exact Quiet.onFirmware (Firmware.receive_ensures bench.pool.read request) bench
  | mailbox limits => exact quiet_exchange limits request bench

/-- Sending a request, whatever befalls it. -/
theorem quiet_send (request : AdminRequest) : Quiet (send request) := by
  refine Quiet.bind (.modify fun _ => ⟨fun _ _ _ => rfl, rfl, Nat.le_refl _⟩) fun _ => ?_
  refine Quiet.bind .get fun bench => ?_
  split
  · exact quiet_deliver request
  · exact .refuse _
  · exact .refuse _
  · exact .refuse _
  · exact .refuse _
  · exact (quiet_deliver request).bind fun _ => .refuse _
  · exact .pure _
  · exact .pure _

/-- A write that does not ring the bell. -/
theorem writeRegister_eq {offset : Nat} {value : UInt32}
    (no_bell : ¬(offset = Mailbox.doorbell ∧ value = 1)) (bench : Bench) :
    writeRegister offset value bench =
      (.ok (), { bench with registers := bench.registers.write offset value }) := by
  simp only [writeRegister]
  split
  · rw [if_neg no_bell]
  · rfl

theorem write_link_ensures (bench : Bench) (table : LinkTable) (index : Nat) (value : UInt32)
    (inside : index < table.extent) :
    Action.Ensures intact (writeRegister (table.offset index) value) bench
      (fun _ after => outstanding after = outstanding bench ∧
        ∀ (other : LinkTable) place, place < other.extent →
          register after (other.offset place) =
            if other.offset place = table.offset index then value
            else register bench (other.offset place))
      fun _ => False := by
  have no_bell : ¬(table.offset index = Mailbox.doorbell ∧ value = 1) := fun bell =>
    (offset_ne_mailbox inside).1 bell.1
  rw [Action.Ensures, writeRegister_eq no_bell]
  refine ⟨id, rfl, ?_⟩
  intro other place _
  exact RegisterFile.read_write _ _ _ _

theorem write_zero_ensures (bench : Bench) (offset : Nat) :
    Action.Ensures intact (writeRegister offset 0) bench
      (fun _ after => ∀ table index, index < table.extent →
        linkEntry bench table index = LinkTable.unlinked →
          linkEntry after table index = LinkTable.unlinked)
      fun _ => False := by
  have no_bell : ¬(offset = Mailbox.doorbell ∧ (0 : UInt32) = 1) := by simp
  rw [Action.Ensures, writeRegister_eq no_bell]
  refine ⟨id, ?_⟩
  intro table index inside clear
  simp only [linkEntry, register] at clear ⊢
  rw [RegisterFile.read_write]
  split
  · rfl
  · exact clear

theorem allocate_block_ensures (bench : Bench) :
    Action.Ensures intact (BlockMemory.allocate .parameters parameterBlockSize) bench
      (fun block after => SameLinks bench after ∧ outstanding after = outstanding bench + 1 ∧
        lent after block)
      (Undisturbed bench) := by
  refine (allocate_ensures .parameters (by decide) bench).weaken ?_ fun _ frame =>
    frame.keeps.toUndisturbed
  rintro block after ⟨links, -, -, addresses⟩
  refine ⟨links, ?_, ?_⟩
  · simp only [outstanding, Pool.outstanding_eq_length, addresses, List.length_cons]
  · simp only [lent, addresses, List.mem_cons, true_or]

theorem release_block_keeps (bench : Bench) (block : Block) :
    (intact (BlockMemory.release block bench) → intact bench) ∧
      SameLinks bench (BlockMemory.release block bench) ∧
      (lent bench block →
        outstanding (BlockMemory.release block bench) + 1 = outstanding bench) := by
  refine ⟨id, fun _ _ _ => rfl, ?_⟩
  intro lent
  have count := List.length_erase_of_mem lent
  have occupied := List.length_pos_of_mem lent
  simp only [outstanding, Pool.outstanding_eq_length]
  change (bench.pool.free block.iova).addresses.length + 1 = bench.pool.addresses.length
  rw [Pool.addresses_free, ← bench.pool.nodup_addresses.erase_eq_filter, count]
  omega

theorem Quiet.keeps {action : Action Bench α} (quiet : Quiet action) (bench : Bench) :
    Action.Ensures intact action bench (fun _ => Keeps bench) (Keeps bench) :=
  (quiet bench).weaken (fun _ _ frame => frame.keeps) fun _ frame => frame.keeps

instance : LinkedDevice Bench where
  write_link := write_link_ensures
  write_zero := write_zero_ensures
  allocate_block := allocate_block_ensures
  fill_block bench block bytes := (quiet_fill block bytes).keeps bench
  release_block := release_block_keeps
  exchange_message bench request := (quiet_send request).keeps bench

end Bench

end RateTree
