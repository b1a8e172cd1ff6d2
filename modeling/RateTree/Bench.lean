import RateTree.Admin.Firmware
import RateTree.Admin.Mailbox
import RateTree.Memory.Pool
import RateTree.RegisterFile

/-!
# The bench

A simulated device: registers kept in memory, a pool of memory blocks and simulated firmware. The
firmware is reached either directly or through the mailbox registers, which then ring a bell on the
firmware's side; how the bell answers can be set. On the way to the firmware, single requests can
be tampered with by number.
-/

namespace RateTree

/-- What befalls a request on its way to the firmware. -/
inductive LinkFault where
  | linkDown
  | timeout
  | busReset
  | deviceMissing
  /-- The firmware serves the request, and its response is lost. -/
  | responseLost
  /-- The firmware does not see the request; a response with this status comes back. -/
  | status (code : UInt8)
  /-- The firmware does not see the request; a response to another command comes back. -/
  | foreign (response : AdminResponse)
deriving DecidableEq

/-- How the firmware's side of the mailbox behaves. -/
structure Bell where
  /-- How many reads see the doorbell set after a request was posted. -/
  delay : Nat
  /-- Whether posted requests are left lying, with the doorbell set. -/
  silent : Bool
  /-- A response that is given in place of the firmware's own. -/
  answer : Option AdminResponse
  /-- What `delay` is for the next requests, the first one's first, where it is another. -/
  delays : List Nat := []
deriving DecidableEq

namespace Bell

/-- A bell that is answered before the first look at it. -/
def prompt : Bell := ⟨0, false, none, []⟩

/-- How many reads see the doorbell set after the next request. -/
def nextDelay (bell : Bell) : Nat := bell.delays.headD bell.delay

/-- The bell once a request was posted. -/
def rung (bell : Bell) : Bell := { bell with delays := bell.delays.tail }

end Bell

/-- How requests reach the firmware. -/
inductive Carrier where
  | direct
  | mailbox (limits : PollLimits)
deriving DecidableEq

/-- A simulated device. -/
structure Bench where
  registers : RegisterFile
  pool : Pool
  firmware : Firmware
  carrier : Carrier
  /-- The firmware's side of the mailbox, if the mailbox registers have one. -/
  bell : Option Bell
  /-- How many more reads will see the doorbell set. -/
  pending : Nat
  /-- What befalls the requests with given numbers; the last entry for a number counts. -/
  faults : List (Nat × LinkFault)
  /-- How many requests were sent so far. -/
  sent : Nat
  /-- The largest block handed out for parameters. -/
  parameterLimit : Option Nat
  /-- The largest block handed out for messages. -/
  messageLimit : Option Nat
deriving DecidableEq

namespace Bench

/-- A device that was just switched on, with its firmware within direct reach. -/
def fresh : Bench where
  registers := .empty
  pool := .empty
  firmware := .fresh
  carrier := .direct
  bell := none
  pending := 0
  faults := []
  sent := 0
  parameterLimit := none
  messageLimit := none

/-- Runs an action on the memory of a bench. -/
def onPool {α : Type} (action : Action Pool α) : Action Bench α :=
  Action.focus Bench.pool (fun bench pool => { bench with pool }) action

/-- Runs an action on the firmware of a bench. -/
def onFirmware {α : Type} (action : Action Firmware α) : Action Bench α :=
  Action.focus Bench.firmware (fun bench firmware => { bench with firmware }) action

/-- The size of the block that is handed out when one of a given size is asked for. -/
def granted (bench : Bench) (use : BlockUse) (size : Nat) : Nat :=
  let limit :=
    match use with
    | .parameters => bench.parameterLimit
    | .message => bench.messageLimit
  match limit with
  | some largest => min size largest
  | none => size

/-- The blocks of a bench are those of its pool, cut down to the limit of their use. -/
instance : BlockMemory Bench where
  allocate use size := fun bench => onPool (Pool.allocate (bench.granted use size)) bench
  fill block bytes := onPool (Pool.write block.iova 0 bytes)
  contents block bench := (bench.pool.read block.iova).getD []
  release block bench := { bench with pool := bench.pool.free block.iova }

/-- The address of the message area, as the two halves of it were written. -/
def postedArea (bench : Bench) : Nat :=
  (bench.registers.read Mailbox.areaHigh).toNat * 0x100000000 +
    (bench.registers.read Mailbox.areaLow).toNat

/-- The firmware's response to a request that was posted: the one set beforehand, or else its own,
a failure being reported as a status. -/
def respond (bell : Bell) (request : AdminRequest) : Bench → AdminResponse × Bench := fun bench =>
  match bell.answer with
  | some response => (response, bench)
  | none =>
    match onFirmware (Firmware.serve bench.pool.read request) bench with
    | (.ok response, after) => (response, after)
    | (.error _, after) => (⟨request.command.id, 0xEE⟩, after)

/-- What the firmware does when its bell is rung: it reads the posted request and writes its
response behind it, if there is room. -/
def ring (bell : Bell) (bench : Bench) : Bench :=
  let rung := { bench with pending := bell.nextDelay, bell := some bell.rung }
  if bell.silent then rung
  else
    let area := rung.postedArea
    match (rung.pool.read area).map AdminRequest.decode with
    | some (.ok request) =>
      let (response, after) := respond bell request rung
      (onPool (Pool.write area messageLength response.encode) after).2
    | _ => rung

/-- Reads the doorbell, which the firmware clears once it has been seen set as often as the bell's
delay says. -/
def readDoorbell (bell : Bell) (bench : Bench) : UInt32 × Bench :=
  let value := bench.registers.read Mailbox.doorbell
  if value = 0 ∨ bell.silent then (value, bench)
  else if bench.pending = 0 then
    (0, { bench with registers := bench.registers.poke Mailbox.doorbell 0 })
  else (value, { bench with pending := bench.pending - 1 })

/-- Behind a mailbox, the doorbell register is answered by the bell. -/
instance : RegisterAccess Bench where
  readRegister offset := fun bench =>
    match bench.bell with
    | some bell =>
      if offset = Mailbox.doorbell then
        let (value, after) := readDoorbell bell bench
        (.ok value, after)
      else (.ok (bench.registers.read offset), bench)
    | none => (.ok (bench.registers.read offset), bench)
  writeRegister offset value := fun bench =>
    let written := { bench with registers := bench.registers.write offset value }
    match bench.bell with
    | some bell =>
      if offset = Mailbox.doorbell ∧ value = 1 then (.ok (), ring bell written)
      else (.ok (), written)
    | none => (.ok (), written)

/-- Takes a request to the firmware, by the carrier of the bench. -/
def deliver (request : AdminRequest) : Action Bench AdminResponse := fun bench =>
  match bench.carrier with
  | .direct => onFirmware (Firmware.receive bench.pool.read request.encode) bench
  | .mailbox limits => Mailbox.exchange limits request bench

/-- What befalls the request that is being sent. -/
def currentFault? (bench : Bench) : Option LinkFault :=
  (bench.faults.reverse.find? fun entry => entry.1 == bench.sent).map Prod.snd

/-- Sends a request, which may be tampered with on the way. -/
def send (request : AdminRequest) : Action Bench AdminResponse := do
  Action.modify fun bench => { bench with sent := bench.sent + 1 }
  let bench ← Action.get
  match bench.currentFault? with
  | none => deliver request
  | some .linkDown => Action.refuse (.admin request.command .linkDown)
  | some .timeout => Action.refuse (.timeout 7)
  | some .busReset => Action.refuse (.internal .busReset)
  | some .deviceMissing => Action.refuse (.notFound .device)
  | some .responseLost => do
    let _ ← deliver request
    Action.refuse (.timeout 9)
  | some (.status code) => pure ⟨request.command.id, code⟩
  | some (.foreign response) => pure response

/-- Requests are counted, and the injected faults strike at their turn. -/
instance : AdminTransport Bench where
  exchange := send

end Bench

end RateTree
