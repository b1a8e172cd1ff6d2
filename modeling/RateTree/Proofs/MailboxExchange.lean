import RateTree.Proofs.DirectBench

/-!
# Exchanges through the mailbox

When the bell of a mailbox answers and clears the doorbell in time, an exchange through it comes to one
request served: the request is read back from the message area as it was posted, the firmware serves it
from the memory it would have served it from anyway, and its response, or the status that stands for its
failure, is read back as it was written. Of the device nothing else is touched but the registers of the
mailbox and a page of addresses.
-/

namespace RateTree

/-- The registers that an exchange through the mailbox writes. -/
def Mailbox.registers : List Nat := [areaLow, areaHigh, doorbell]

/-- Whether a bell answers every request with the firmware's response, before a number of reads of the
doorbell are up. -/
structure Bell.InTime (bell : Bell) (limits : PollLimits) : Prop where
  answers : bell.silent = false
  own : bell.answer = none
  prompt : bell.delay < limits.maxPolls
  prompt_next : ∀ delay ∈ bell.delays, delay < limits.maxPolls

theorem Bell.InTime.rung {bell : Bell} {limits : PollLimits} (inTime : bell.InTime limits) :
    bell.rung.InTime limits :=
  ⟨inTime.answers, inTime.own, inTime.prompt,
    fun delay mem => inTime.prompt_next delay (List.mem_of_mem_tail mem)⟩

theorem Bell.InTime.nextDelay_lt {bell : Bell} {limits : PollLimits} (inTime : bell.InTime limits) :
    bell.nextDelay < limits.maxPolls := by
  rw [Bell.nextDelay]
  cases delays : bell.delays with
  | nil => exact inTime.prompt
  | cons delay rest => exact inTime.prompt_next delay (by simp [delays])

/-- What comes back through the mailbox: the response of the firmware, or a status in its place. -/
def Firmware.reported (request : AdminRequest) : Outcome AdminResponse → AdminResponse
  | .ok response => response
  | .error _ => ⟨request.command.id, 0xEE⟩

theorem Firmware.serve_congr {memory other : Nat → Option (List UInt8)} {request : AdminRequest}
    (same : readParameters memory request = readParameters other request) :
    serve memory request = serve other request := by
  simp only [serve, same]

theorem Firmware.readParameters_congr {memory other : Nat → Option (List UInt8)}
    {request : AdminRequest}
    (same : memory request.block.toNat = other request.block.toNat) :
    readParameters memory request = readParameters other request := by
  simp only [readParameters, same]

namespace RegisterFile

variable {registers : RegisterFile} {iova offset : Nat}

/-- Registers in which the address of a message area was published and the doorbell set. -/
def posted (registers : RegisterFile) (iova : Nat) : RegisterFile :=
  ((registers.write Mailbox.areaLow (iova % 0x100000000).toUInt32).write Mailbox.areaHigh
    (iova / 0x100000000).toUInt32).write Mailbox.doorbell 1

theorem read_posted_doorbell : (registers.posted iova).read Mailbox.doorbell = 1 := by
  rw [posted, read_write, if_pos rfl]

theorem read_posted_of_not_mem (elsewhere : offset ∉ Mailbox.registers) :
    (registers.posted iova).read offset = registers.read offset := by
  simp only [Mailbox.registers, List.mem_cons, List.not_mem_nil, or_false, not_or] at elsewhere
  rcases elsewhere with ⟨low, high, doorbell⟩
  rw [posted, read_write, if_neg doorbell, read_write, if_neg high, read_write, if_neg low]

end RegisterFile

namespace Mailbox

section Converse

variable {σ : Type} [RegisterAccess σ] [BlockMemory σ]

/-- What follows in an exchange once the request is in its area. -/
def converse (limits : PollLimits) (request : AdminRequest) (area : Block) : Action σ AdminResponse := do
  post area.iova
  let clear ← awaitClear limits.maxPolls
  if !clear then
    Action.refuse (.timeout (Word.saturate 64 limits.milliseconds))
  let state ← Action.get
  let response := responseIn request.command (BlockMemory.contents area state)
  (response : Except Error _)

theorem exchange_eq_converse (limits : PollLimits) (request : AdminRequest) :
    exchange (σ := σ) limits request = withBlock .message areaSize (fun area => do
      BlockMemory.fill area request.encode
      converse limits request area) := rfl

end Converse

theorem overwrite_zeros (request : AdminRequest) :
    overwrite (Bytes.zeros areaSize) 0 request.encode =
      request.encode ++ Bytes.zeros messageLength := by
  have rest : (Bytes.zeros areaSize).drop (0 + messageLength) = Bytes.zeros messageLength := by
    simp [Bytes.zeros, areaSize, messageLength]
  rw [overwrite, request.length_encode, rest, List.take_zero, List.nil_append]

/-- The response that the firmware wrote behind a request is read back. -/
theorem responseIn_answered {request : AdminRequest} {response : AdminResponse} {rest : List UInt8}
    (room : rest.length = messageLength) (command : AdminCommand) :
    responseIn command (overwrite (request.encode ++ rest) messageLength response.encode) =
      .ok response := by
  have area : overwrite (request.encode ++ rest) messageLength response.encode =
      request.encode ++ response.encode := by
    have first : (request.encode ++ rest).take messageLength = request.encode := by
      rw [← request.length_encode, List.take_left]
    have last : (request.encode ++ rest).drop (messageLength + response.encode.length) = [] := by
      apply List.drop_eq_nil_of_le
      rw [List.length_append, request.length_encode, response.length_encode, room]
    rw [overwrite, first, last, List.append_nil]
  have whole : ¬(request.encode ++ response.encode).length < areaSize := by
    rw [List.length_append, request.length_encode, response.length_encode, areaSize]
    omega
  have behind : ((request.encode ++ response.encode).drop messageLength).take messageLength =
      response.encode := by
    rw [← request.length_encode, List.drop_left, request.length_encode,
      List.take_of_length_le response.length_encode.le]
  rw [area, responseIn, if_neg whole, behind, AdminResponse.decode_encode]

end Mailbox

namespace Bench

/-- Whether the firmware of a bench is reached through a mailbox that is answered in time, and nothing
befalls its requests. -/
structure Behind (limits : PollLimits) (bench : Bench) : Prop where
  carrier_eq : bench.carrier = .mailbox limits
  bell : ∃ bell, bench.bell = some bell ∧ bell.InTime limits
  faults_eq : bench.faults = []
  parameters_eq : bench.parameterLimit = none
  messages_eq : bench.messageLimit = none

variable {bench : Bench} {bell : Bell} {limits : PollLimits} {request : AdminRequest}
  {outcome : Outcome AdminResponse} {firmware : Firmware}

/-! ## The parts of an exchange -/

theorem postedArea_posted {registers : RegisterFile} {iova : Nat} (fits : iova < 2 ^ 64)
    (posted : bench.registers = registers.posted iova) : bench.postedArea = iova := by
  have high : bench.registers.read Mailbox.areaHigh = (iova / 0x100000000).toUInt32 := by
    rw [posted, RegisterFile.posted, RegisterFile.read_write, if_neg (by decide),
      RegisterFile.read_write, if_pos rfl]
  have low : bench.registers.read Mailbox.areaLow = (iova % 0x100000000).toUInt32 := by
    rw [posted, RegisterFile.posted, RegisterFile.read_write, if_neg (by decide),
      RegisterFile.read_write, if_neg (by decide), RegisterFile.read_write, if_pos rfl]
  rw [postedArea, high, low]
  simp only [Nat.toUInt32, UInt32.toNat_ofNat']
  omega

theorem post_eq (has : bench.bell = some bell) (iova : Nat) :
    Mailbox.post iova bench =
      (.ok (), ring bell { bench with registers := bench.registers.posted iova }) := by
  have low : ¬(Mailbox.areaLow = Mailbox.doorbell ∧ (iova % 0x100000000).toUInt32 = 1) := by
    simp [Mailbox.areaLow, Mailbox.doorbell]
  have high : ¬(Mailbox.areaHigh = Mailbox.doorbell ∧ (iova / 0x100000000).toUInt32 = 1) := by
    simp [Mailbox.areaHigh, Mailbox.doorbell]
  simp only [Mailbox.post, Action.bind_apply, writeRegister_eq low, writeRegister_eq high]
  simp only [writeRegister, has, and_self, if_true, RegisterFile.posted]

theorem respond_eq (own : bell.answer = none)
    (served : Firmware.serve bench.pool.read request bench.firmware = (outcome, firmware)) :
    respond bell request bench = (Firmware.reported request outcome, { bench with firmware }) := by
  simp only [respond, own, onFirmware, Action.focus, served]
  cases outcome <;> rfl

theorem ring_eq (inTime : bell.InTime limits) {iova : Nat} (posted : bench.postedArea = iova)
    {rest : List UInt8} {block : PoolBlock} (found : bench.pool.block? iova = some block)
    (held : block.contents = request.encode ++ rest) (fits : 2 * messageLength ≤ block.size)
    (served : Firmware.serve bench.pool.read request bench.firmware = (outcome, firmware)) :
    ring bell bench =
      { bench with
        pending := bell.nextDelay
        bell := some bell.rung
        firmware
        pool := bench.pool.overwriteBlock iova messageLength
          (Firmware.reported request outcome).encode } := by
  have read : bench.pool.read iova = some (request.encode ++ rest) := by
    rw [Pool.read, found, Option.map_some, held]
  have room : messageLength + (Firmware.reported request outcome).encode.length ≤ block.size := by
    rw [AdminResponse.length_encode]
    omega
  have responded : respond bell request
      { bench with pending := bell.nextDelay, bell := some bell.rung } =
        (Firmware.reported request outcome,
          { bench with pending := bell.nextDelay, bell := some bell.rung, firmware }) :=
    respond_eq inTime.own served
  have area : postedArea { bench with pending := bell.nextDelay, bell := some bell.rung } = iova :=
    posted
  simp only [ring, inTime.answers, Bool.false_eq_true, if_false, area, read, Option.map_some,
    request.decode_append, responded, onPool, Action.focus, Pool.write_of_block? found room]

theorem readRegister_doorbell (has : bench.bell = some bell) :
    readRegister Mailbox.doorbell bench =
      (.ok (readDoorbell bell bench).1, (readDoorbell bell bench).2) := by
  simp only [readRegister, has, if_true]

/-- The doorbell is seen clear once it has been seen set as often as the bell's delay says. -/
theorem awaitClear_eq (has : bench.bell = some bell) (answers : bell.silent = false)
    (set : bench.registers.read Mailbox.doorbell ≠ 0) {polls : Nat} (prompt : bench.pending < polls) :
    Mailbox.awaitClear polls bench =
      (.ok true, { bench with
        pending := 0
        registers := bench.registers.poke Mailbox.doorbell 0 }) := by
  induction polls generalizing bench with
  | zero => omega
  | succ polls ih =>
      have seen : ¬(bench.registers.read Mailbox.doorbell = 0 ∨ bell.silent) := by
        simp [set, answers]
      rw [awaitClear_succ, Action.bind_apply, readRegister_doorbell has, readDoorbell, if_neg seen]
      by_cases last : bench.pending = 0
      · simp only [last, if_true, Action.pure_apply]
      · have less : bench.pending - 1 < polls := by omega
        simp only [if_neg last, if_neg set]
        exact ih has set less

/-! ## The exchange -/

/-- Once the request is in the message area, it is posted, served and answered. -/
theorem converse_eq (has : bench.bell = some bell) (inTime : bell.InTime limits) {iova : Nat}
    (fits : iova < 2 ^ 64) {block : PoolBlock} (found : bench.pool.block? iova = some block)
    {rest : List UInt8} (held : block.contents = request.encode ++ rest)
    (exact : rest.length = messageLength) (large : 2 * messageLength ≤ block.size)
    (served : Firmware.serve bench.pool.read request bench.firmware = (outcome, firmware)) (size : Nat) :
    Mailbox.converse limits request ⟨iova, size⟩ bench =
      (.ok (Firmware.reported request outcome), { bench with
        registers := (bench.registers.posted iova).poke Mailbox.doorbell 0
        pool := bench.pool.overwriteBlock iova messageLength (Firmware.reported request outcome).encode
        firmware
        bell := some bell.rung
        pending := 0 }) := by
  let rung : Bench := { bench with
    registers := bench.registers.posted iova
    pool := bench.pool.overwriteBlock iova messageLength (Firmware.reported request outcome).encode
    firmware
    bell := some bell.rung
    pending := bell.nextDelay }
  have area : postedArea { bench with registers := bench.registers.posted iova } = iova :=
    postedArea_posted fits rfl
  have ringing : ring bell { bench with registers := bench.registers.posted iova } = rung :=
    ring_eq inTime area found held large served
  have set : rung.registers.read Mailbox.doorbell ≠ 0 := by
    rw [RegisterFile.read_posted_doorbell]
    decide
  have has_rung : rung.bell = some bell.rung := rfl
  have waited := awaitClear_eq has_rung inTime.answers set inTime.nextDelay_lt
  have read : bench.pool.read iova = some (request.encode ++ rest) := by
    rw [Pool.read, found, Option.map_some, held]
  have contents : rung.pool.read iova = some (overwrite (request.encode ++ rest) messageLength
      (Firmware.reported request outcome).encode) := Pool.read_overwriteBlock read
  rw [Mailbox.converse, Action.bind_apply, post_eq has, ringing]
  simp only [Action.bind_apply, waited, Bool.not_true, Bool.false_eq_true, if_false,
    Action.get_apply, Action.liftError_apply, BlockMemory.contents, contents, Option.getD_some,
    Mailbox.responseIn_answered exact]
  rfl

theorem converse_in_area (has : bench.bell = some bell) (inTime : bell.InTime limits)
    (positive : 0 < Mailbox.areaSize) (room : bench.pool.nextAddress < 2 ^ 64)
    (elsewhere : request.block.toNat ≠ bench.pool.nextAddress)
    (served : Firmware.serve bench.pool.read request bench.firmware = (outcome, firmware)) :
    (do
        BlockMemory.fill ⟨bench.pool.nextAddress, Mailbox.areaSize⟩ request.encode
        Mailbox.converse limits request ⟨bench.pool.nextAddress, Mailbox.areaSize⟩)
      { bench with pool := bench.pool.push Mailbox.areaSize positive } =
      (.ok (Firmware.reported request outcome), { bench with
        registers := (bench.registers.posted bench.pool.nextAddress).poke Mailbox.doorbell 0
        pool := ((bench.pool.push Mailbox.areaSize positive).overwriteBlock bench.pool.nextAddress 0
          request.encode).overwriteBlock bench.pool.nextAddress messageLength
            (Firmware.reported request outcome).encode
        firmware
        bell := some bell.rung
        pending := 0 }) := by
  let filled : Bench := { bench with
    pool := (bench.pool.push Mailbox.areaSize positive).overwriteBlock bench.pool.nextAddress 0
      request.encode }
  have filling : BlockMemory.fill ⟨bench.pool.nextAddress, Mailbox.areaSize⟩ request.encode
      { bench with pool := bench.pool.push Mailbox.areaSize positive } = (.ok (), filled) :=
    fill_push (request.length_encode.trans_le (by decide))
  have has_filled : filled.bell = some bell := has
  -- The parameters of the request are not in the message area, so they are read as they were.
  have served_filled : Firmware.serve filled.pool.read request filled.firmware =
      (outcome, firmware) := by
    rw [← served]
    apply congrFun (Firmware.serve_congr (Firmware.readParameters_congr _))
    rw [Pool.read_overwriteBlock_of_ne elsewhere, Pool.read_push_of_ne elsewhere]
  have found : filled.pool.block? bench.pool.nextAddress =
      some (PoolBlock.write ⟨bench.pool.nextAddress, Mailbox.areaSize, []⟩ 0 request.encode) := by
    rw [Pool.block?_overwriteBlock, Pool.block?_push]
    simp
  rw [Action.bind_apply, filling]
  exact converse_eq has_filled inTime room found (Mailbox.overwrite_zeros request)
    (Bytes.length_zeros messageLength) (Nat.le_refl _) served_filled Mailbox.areaSize

/-- What an exchange leaves behind: nothing is new but what the firmware did, the registers of the
mailbox and the addresses used up. -/
structure Exchanged (limits : PollLimits) (before after : Bench) (firmware : Firmware) : Prop where
  behind : after.Behind limits
  firmware_eq : after.firmware = firmware
  registers : ∀ offset ∉ Mailbox.registers,
    after.registers.read offset = before.registers.read offset
  addresses : before.pool.nextAddress ≤ after.pool.nextAddress

/-- An exchange through a mailbox that is answered in time has the request served. -/
theorem exchange_eq (behind : bench.Behind limits) (room : bench.pool.nextAddress < 2 ^ 64)
    (elsewhere : request.block.toNat ≠ bench.pool.nextAddress)
    (served : Firmware.serve bench.pool.read request bench.firmware = (outcome, firmware)) :
    ∃ after, Mailbox.exchange limits request bench =
        (.ok (Firmware.reported request outcome), after) ∧
      Exchanged limits bench after firmware := by
  rcases behind.bell with ⟨bell, has, inTime⟩
  have granted : bench.granted .message Mailbox.areaSize = Mailbox.areaSize := by
    rw [Bench.granted, behind.messages_eq]
  have lends := withBlock_lends_of_granted granted (by decide) (by decide) fun area => do
    BlockMemory.fill area request.encode
    Mailbox.converse limits request area
  rw [← Mailbox.exchange_eq_converse] at lends
  generalize Mailbox.exchange limits request bench = finished at lends ⊢
  cases lends with
  | exhausted cause full => omega
  | @lent positive _ finished after ended =>
      rw [converse_in_area has inTime positive room elsewhere served, Prod.mk.injEq] at ended
      rcases ended with ⟨rfl, rfl⟩
      refine ⟨_, rfl, ?_, rfl, ?_, ?_⟩
      · exact ⟨behind.carrier_eq, ⟨bell.rung, rfl, inTime.rung⟩, behind.faults_eq,
          behind.parameters_eq, behind.messages_eq⟩
      · intro offset elsewhere
        have apart : offset ≠ Mailbox.doorbell := by
          rintro rfl
          simp [Mailbox.registers] at elsewhere
        exact (RegisterFile.read_poke _ _ _ _).trans
          ((if_neg apart).trans (RegisterFile.read_posted_of_not_mem elsewhere))
      · exact Nat.le_trans (Nat.le_add_right _ _)
          (bench.pool.nextAddress_push positive (by decide)).ge

end Bench

end RateTree
