import RateTree.Admin.Mailbox
import RateTree.Proofs.PooledMemory
import RateTree.Proofs.Pools

/-!
# Devices that do as they please

A device behind a mailbox of which nothing is known. It answers every read of a register as it likes, hands
out memory of any size, and whenever the host has touched its registers or its memory it writes whatever it
likes into the blocks whose addresses it was told. It was told every address that the two registers of the
mailbox have named, one of which may be written before the other. A journal keeps what it was told, how it
answered, and what it wrote.
-/

namespace RateTree

/-- A write of the device into the block at an address, from an offset on. -/
structure DeviceWrite where
  address : Nat
  offset : Nat
  bytes : List UInt8
deriving DecidableEq

/-- What a device does at one moment. -/
structure DeviceMove where
  /-- What is read from a register. -/
  answer : UInt32
  /-- The size of a block that is handed out. -/
  granted : Nat
  /-- How many reads of the doorbell there is time for. -/
  patience : Nat
  /-- What it writes afterwards. -/
  writes : List DeviceWrite

/-- What the device was told and what it did. -/
inductive DeviceEvent where
  | told (address : Nat)
  | polled (value : UInt32)
  | wrote (write : DeviceWrite)
deriving DecidableEq

/-- A device, by what the host has put into its memory and its registers, and by what it does. -/
structure Untrusted where
  pool : Pool
  /-- The registers that name a message area. -/
  low : UInt32
  high : UInt32
  limits : PollLimits
  behaviour : Nat → DeviceMove
  moment : Nat
  /-- What has happened so far, newest first. -/
  journal : List DeviceEvent

namespace Untrusted

/-- A device of some behaviour that was not reached yet. -/
def fresh (limits : PollLimits) (behaviour : Nat → DeviceMove) : Untrusted where
  pool := .empty
  low := 0
  high := 0
  limits
  behaviour
  moment := 0
  journal := []

/-- What the device does next. -/
def move (device : Untrusted) : DeviceMove := device.behaviour device.moment

/-- The device once it has written something, if it was told the address and the bytes stay within the
block there. -/
def put (device : Untrusted) (write : DeviceWrite) : Untrusted :=
  if .told write.address ∈ device.journal then
    match Pool.write write.address write.offset write.bytes device.pool with
    | (.ok (), pool) => { device with pool, journal := .wrote write :: device.journal }
    | (.error _, _) => device
  else device

/-- The device with writes made one after the other. -/
def putAll (device : Untrusted) (writes : List DeviceWrite) : Untrusted := writes.foldl put device

/-- The device after its next move. -/
def act (device : Untrusted) : Untrusted :=
  { device.putAll device.move.writes with moment := device.moment + 1 }

/-- The address of the message area, as the two halves of it were written. -/
def named (device : Untrusted) : Nat := device.high.toNat * 0x100000000 + device.low.toNat

/-- The device told that a message is there, in the area that its registers name. -/
def hear (device : Untrusted) : Untrusted :=
  { device with journal := .told device.named :: device.journal }

instance : RegisterAccess Untrusted where
  readRegister offset := fun device =>
    let answer := device.move.answer
    if offset = Mailbox.doorbell then
      (.ok answer, act { device with journal := .polled answer :: device.journal })
    else (.ok answer, device.act)
  writeRegister offset value := fun device =>
    if offset = Mailbox.areaLow then (.ok (), (hear { device with low := value }).act)
    else if offset = Mailbox.areaHigh then (.ok (), (hear { device with high := value }).act)
    else (.ok (), device.act)

instance : BlockMemory Untrusted where
  allocate _ _ := fun device =>
    let (outcome, pool) := Pool.allocate device.move.granted device.pool
    (outcome, act { device with pool })
  fill block bytes := fun device =>
    let (outcome, pool) := Pool.write block.iova 0 bytes device.pool
    (outcome, act { device with pool })
  contents block device := (device.pool.read block.iova).getD []
  release block device := act { device with pool := device.pool.free block.iova }

instance : AdminTransport Untrusted where
  exchange request := fun device =>
    let maxPolls := min device.limits.maxPolls device.move.patience
    Mailbox.exchange { device.limits with maxPolls } request device

end Untrusted

/-! ## What a journal says -/

namespace DeviceEvent

/-- The value that was read of the doorbell. -/
def polled? : DeviceEvent → Option UInt32
  | .polled value => some value
  | .told _ | .wrote _ => none

/-- What was written into the block at an address. -/
def into? (address : Nat) : DeviceEvent → Option (Nat × List UInt8)
  | .wrote write => if write.address = address then some (write.offset, write.bytes) else none
  | .told _ | .polled _ => none

/-- How the doorbell was found, newest first. -/
def polls (journal : List DeviceEvent) : List UInt32 := journal.filterMap polled?

/-- What was written into the block at an address, newest first. -/
def written (address : Nat) (journal : List DeviceEvent) : List (Nat × List UInt8) :=
  journal.filterMap (into? address)

variable {write : DeviceWrite} {address : Nat} {journal : List DeviceEvent}

theorem written_wrote (here : write.address = address) :
    written address (.wrote write :: journal) =
      (write.offset, write.bytes) :: written address journal := by
  simp [written, into?, here]

theorem written_wrote_of_ne (elsewhere : write.address ≠ address) :
    written address (.wrote write :: journal) = written address journal := by
  simp [written, into?, elsewhere]

end DeviceEvent

namespace Untrusted

open DeviceEvent (polls written written_wrote written_wrote_of_ne)

/-- What is known of every device, whatever it has done. -/
structure Sound (device : Untrusted) : Prop where
  told_lt : ∀ address, .told address ∈ device.journal → address < device.pool.nextAddress
  wrote_told : ∀ write, .wrote write ∈ device.journal → .told write.address ∈ device.journal
  high_le : device.high.toNat * 0x100000000 ≤ device.pool.nextAddress

/-- Whether a block holds what the host wrote into it and what the device wrote after that. -/
structure Tracks (device : Untrusted) (block : Block) (host : List (Nat × List UInt8)) : Prop where
  found : device.pool.block? block.iova =
    some ⟨block.iova, block.size, written block.iova device.journal ++ host⟩
  fits : ∀ entry ∈ written block.iova device.journal ++ host, entry.1 + entry.2.length ≤ block.size

/-- What does not change while a device is left to itself. -/
structure Quiet (before after : Untrusted) : Prop where
  journal : before.journal <:+ after.journal
  told_iff : ∀ address, .told address ∈ after.journal ↔ .told address ∈ before.journal
  wrote_told : ∀ write, .wrote write ∈ after.journal →
    .wrote write ∈ before.journal ∨ .told write.address ∈ before.journal
  low_eq : after.low = before.low
  high_eq : after.high = before.high
  limits_eq : after.limits = before.limits
  next_eq : after.pool.nextAddress = before.pool.nextAddress
  tracks : ∀ block host, before.Tracks block host → after.Tracks block host

namespace Quiet

variable {before between after : Untrusted}

theorem refl (device : Untrusted) : Quiet device device :=
  ⟨List.suffix_rfl, fun _ => .rfl, fun _ => .inl, rfl, rfl, rfl, rfl, fun _ _ => id⟩

theorem trans (first : Quiet before between) (second : Quiet between after) : Quiet before after where
  journal := first.journal.trans second.journal
  told_iff address := (second.told_iff address).trans (first.told_iff address)
  wrote_told write mem := by
    rcases second.wrote_told write mem with old | told
    · exact first.wrote_told write old
    · exact .inr ((first.told_iff _).1 told)
  low_eq := second.low_eq.trans first.low_eq
  high_eq := second.high_eq.trans first.high_eq
  limits_eq := second.limits_eq.trans first.limits_eq
  next_eq := second.next_eq.trans first.next_eq
  tracks block host tracks := second.tracks block host (first.tracks block host tracks)

theorem named_eq (quiet : Quiet before after) : after.named = before.named := by
  rw [named, named, quiet.low_eq, quiet.high_eq]

theorem sound (quiet : Quiet before after) (sound : before.Sound) : after.Sound where
  told_lt address told := by
    rw [quiet.next_eq]
    exact sound.told_lt address ((quiet.told_iff address).1 told)
  wrote_told write mem := by
    rw [quiet.told_iff]
    exact (quiet.wrote_told write mem).elim (sound.wrote_told write) id
  high_le := by
    rw [quiet.high_eq, quiet.next_eq]
    exact sound.high_le

end Quiet

/-! ## A device left to itself -/

/-- How a write of the device can end: it is accepted only into a block that the device was told of. -/
inductive Puts (device : Untrusted) (write : DeviceWrite) : Untrusted → Prop where
  | refused : Puts device write device
  | accepted {block : PoolBlock} (told : .told write.address ∈ device.journal)
      (found : device.pool.block? write.address = some block)
      (fits : write.offset + write.bytes.length ≤ block.size) :
      Puts device write { device with
        pool := device.pool.overwriteBlock write.address write.offset write.bytes
        journal := .wrote write :: device.journal }

theorem put_cases (device : Untrusted) (write : DeviceWrite) : device.Puts write (device.put write) := by
  rw [put]
  by_cases told : .told write.address ∈ device.journal
  · rw [if_pos told, Pool.write]
    cases found : device.pool.block? write.address with
    | none => exact .refused
    | some block =>
        by_cases past : block.size < write.offset + write.bytes.length
        · simp only [if_pos past]
          exact .refused
        · simp only [if_neg past]
          exact .accepted told found (Nat.le_of_not_lt past)
  · rw [if_neg told]
    exact .refused

theorem Tracks.put {device after : Untrusted} {write : DeviceWrite} {block : Block}
    {host : List (Nat × List UInt8)} (tracks : device.Tracks block host)
    (puts : device.Puts write after) : after.Tracks block host := by
  cases puts with
  | refused => exact tracks
  | @accepted there told found fits =>
      rcases tracks with ⟨held, inside⟩
      -- A write into the block comes first among those into it; any other leaves the block alone.
      by_cases here : write.address = block.iova
      · rw [here, held] at found
        cases found
        constructor
        · rw [Pool.block?_overwriteBlock, held, Option.map_some, if_pos here.symm, written_wrote here]
          rfl
        · rw [written_wrote here]
          exact List.forall_mem_cons.2 ⟨fits, inside⟩
      · constructor
        · rw [Pool.block?_overwriteBlock, held, Option.map_some, if_neg (Ne.symm here),
            written_wrote_of_ne here]
        · rw [written_wrote_of_ne here]
          exact inside

/-- What the device writes leaves alone what it has not been told about. -/
theorem Quiet.put (device : Untrusted) (write : DeviceWrite) : Quiet device (device.put write) := by
  have ended := device.put_cases write
  have tracks := fun block host (held : device.Tracks block host) => held.put ended
  generalize device.put write = after at ended tracks ⊢
  cases ended with
  | refused => exact .refl device
  | accepted told found fits =>
      constructor
      · exact List.suffix_cons ..
      · simp
      · intro other mem
        rcases List.mem_cons.1 mem with same | old
        · cases same
          exact .inr told
        · exact .inl old
      · rfl
      · rfl
      · rfl
      · rfl
      · exact tracks

theorem polls_put (device : Untrusted) (write : DeviceWrite) :
    polls (device.put write).journal = polls device.journal := by
  have ended := device.put_cases write
  generalize device.put write = after at ended ⊢
  cases ended <;> rfl

theorem quiet_putAll (device : Untrusted) (writes : List DeviceWrite) :
    Quiet device (device.putAll writes) ∧
      polls (device.putAll writes).journal = polls device.journal := by
  induction writes generalizing device with
  | nil => exact ⟨.refl device, rfl⟩
  | cons write rest ih =>
      rcases ih (device.put write) with ⟨quiet, polls_eq⟩
      exact ⟨(Quiet.put device write).trans quiet, polls_eq.trans (device.polls_put write)⟩

theorem quiet_act (device : Untrusted) : Quiet device device.act := by
  have quiet := (device.quiet_putAll device.move.writes).1
  exact { quiet with tracks := fun block host held => { quiet.tracks block host held with } }

theorem polls_act (device : Untrusted) : polls device.act.journal = polls device.journal :=
  (device.quiet_putAll device.move.writes).2

/-! ## The memory of a device -/

/-- What is left of a device while its memory is used: the doorbell has not been read. -/
structure Idles (before after : Untrusted) : Prop where
  journal : before.journal <:+ after.journal
  polls_eq : polls after.journal = polls before.journal
  limits_eq : after.limits = before.limits
  sound : before.Sound → after.Sound

theorem idles_refl (device : Untrusted) : Idles device device := ⟨List.suffix_rfl, rfl, rfl, id⟩

theorem Idles.trans {before between after : Untrusted} (first : Idles before between)
    (second : Idles between after) : Idles before after where
  journal := first.journal.trans second.journal
  polls_eq := second.polls_eq.trans first.polls_eq
  limits_eq := second.limits_eq.trans first.limits_eq
  sound := fun sound => second.sound (first.sound sound)

theorem idles_act {device : Untrusted} {pool : Pool}
    (next_le : device.pool.nextAddress ≤ pool.nextAddress) : Idles device (act { device with pool }) where
  journal := (quiet_act { device with pool }).journal
  polls_eq := polls_act { device with pool }
  limits_eq := (quiet_act { device with pool }).limits_eq
  sound := by
    intro sound
    apply (quiet_act { device with pool }).sound
    exact {
      told_lt := fun address told => Nat.lt_of_lt_of_le (sound.told_lt address told) next_le
      wrote_told := sound.wrote_told
      high_le := Nat.le_trans sound.high_le next_le }

theorem idles_fill (block : Block) (bytes : List UInt8) (device : Untrusted) :
    Idles device (BlockMemory.fill block bytes device).2 := by
  have same := (device.pool.addresses_write block.iova 0 bytes).2
  exact idles_act (by simp only [Pool.nextAddress, same, Nat.le_refl])

theorem told_fill_iff (block : Block) (bytes : List UInt8) (device : Untrusted) (address : Nat) :
    .told address ∈ (BlockMemory.fill block bytes device).2.journal ↔ .told address ∈ device.journal :=
  (quiet_act _).told_iff address

theorem high_fill (block : Block) (bytes : List UInt8) (device : Untrusted) :
    (BlockMemory.fill block bytes device).2.high = device.high :=
  (quiet_act _).high_eq

theorem idles_release (block : Block) (device : Untrusted) :
    Idles device (BlockMemory.release block device) :=
  idles_act (Nat.le_refl _)

/-- How handing out a block can end, after which the device makes a move. -/
inductive Hands (device : Untrusted) : Outcome Block × Untrusted → Prop where
  | refused {failure : Failure} {after : Untrusted} (idles : Idles device after) :
      Hands device (.error failure, after)
  | block {granted : Nat} (positive : 0 < granted) (room : device.pool.nextAddress < 2 ^ 64) :
      Hands device (.ok ⟨device.pool.nextAddress, granted⟩,
        act { device with pool := device.pool.push granted positive })

theorem allocate_cases (use : BlockUse) (size : Nat) (device : Untrusted) :
    device.Hands (BlockMemory.allocate use size device) := by
  have ended := device.pool.allocate_cases device.move.granted
  simp only [BlockMemory.allocate]
  generalize Pool.allocate device.move.granted device.pool = finished at ended ⊢
  cases ended with
  | refused same => exact .refused (idles_act same.next_le)
  | block positive room => exact .block positive room

theorem le_nextAddress_push {pool : Pool} {size : Nat} (positive : 0 < size) :
    pool.nextAddress ≤ (pool.push size positive).nextAddress :=
  Nat.add_le_add_left (Nat.le_add_right _ _) _

section Lent

variable {device : Untrusted} {granted : Nat} (positive : 0 < granted)

theorem not_told_push (sound : device.Sound) : .told device.pool.nextAddress ∉
    (act { device with pool := device.pool.push granted positive }).journal := by
  rw [(quiet_act _).told_iff]
  exact fun told => Nat.lt_irrefl _ (sound.told_lt _ told)

theorem written_eq_nil (sound : device.Sound) {address : Nat} (untold : .told address ∉ device.journal) :
    written address device.journal = [] := by
  rw [written, List.filterMap_eq_nil_iff]
  intro event mem
  cases event with
  | told | polled => rfl
  | wrote write =>
      have told := sound.wrote_told write mem
      have elsewhere : write.address ≠ address := fun same => untold (same ▸ told)
      simp [DeviceEvent.into?, elsewhere]

theorem tracks_push (sound : device.Sound) :
    (act { device with pool := device.pool.push granted positive }).Tracks
      ⟨device.pool.nextAddress, granted⟩ [] := by
  apply (quiet_act _).tracks
  have nothing : written device.pool.nextAddress device.journal = [] :=
    written_eq_nil sound fun told => Nat.lt_irrefl _ (sound.told_lt _ told)
  constructor
  · simp only [nothing, Pool.block?_push, List.append_nil]
  · simp [nothing]

theorem tracks_fill {block : Block} {bytes : List UInt8} {after : Untrusted} (sound : device.Sound)
    (untold : .told block.iova ∉ device.journal) (tracks : device.Tracks block [])
    (filled : BlockMemory.fill block bytes device = (.ok (), after)) :
    after.Tracks block [(0, bytes)] := by
  rcases tracks with ⟨found, -⟩
  have nothing := written_eq_nil sound untold
  simp only [nothing, List.append_nil] at found
  simp only [BlockMemory.fill, Pool.write, found] at filled
  split at filled
  · cases filled
  · next fits =>
    cases filled
    apply (quiet_act _).tracks
    constructor
    · simp only [Pool.block?_overwriteBlock, found, nothing, Option.map_some, if_true]
      rfl
    · simpa [nothing] using Nat.le_of_not_lt fits

end Lent

end Untrusted

end RateTree
