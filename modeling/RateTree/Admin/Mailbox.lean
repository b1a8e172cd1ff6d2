import RateTree.Admin.Channel

/-!
# The mailbox

An exchange with the firmware through registers: the request is put at the start of a message area,
the area's address is published in two registers, and a one in the doorbell register posts it. The
firmware answers behind the request and clears the doorbell, which is read a limited number of
times.
-/

namespace RateTree

/-- How long to wait for the firmware. -/
structure PollLimits where
  /-- How often the doorbell is read at most. -/
  maxPolls : Nat
  /-- After how many reads the processor is offered to others, which no result depends on. -/
  yieldInterval : Nat
  /-- The time limit that a timeout reports, in milliseconds. -/
  milliseconds : Nat
deriving DecidableEq

namespace PollLimits

/-- The limits that are used unless others are given. -/
def usual : PollLimits := ⟨100000, 64, 100⟩

end PollLimits

namespace Mailbox

/-- The offset of the register that is set to announce a message and that the device clears
once it has answered. -/
def doorbell : Nat := 0x600970

/-- The register with the lower half of the message area's address. -/
def areaLow : Nat := 0x500574

/-- The register with the upper half of the message area's address. -/
def areaHigh : Nat := 0x500578

/-- The size of the message area: a request and a response. -/
def areaSize : Nat := 2 * messageLength

variable {σ : Type} [RegisterAccess σ]

/-- Reads the doorbell until it is clear, a number of times at most; tells whether it was. -/
def awaitClear (polls : Nat) : Action σ Bool := fun state =>
  match polls with
  | 0 => (.ok false, state)
  | polls + 1 =>
    match readRegister doorbell state with
    | (.ok value, after) => if value = 0 then (.ok true, after) else awaitClear polls after
    | (.error failure, after) => (.error failure, after)

/-- Publishes the address of a message area and posts the request in it. -/
def post (iova : Nat) : Action σ Unit := do
  writeRegister areaLow (iova % 0x100000000).toUInt32
  writeRegister areaHigh (iova / 0x100000000).toUInt32
  writeRegister doorbell 1

/-- The response to a command, read from its place behind the request in a message area. -/
def responseIn (command : AdminCommand) (area : List UInt8) : Except Error AdminResponse :=
  if area.length < areaSize then .error (.admin command .truncatedArea)
  else AdminResponse.decode ((area.drop messageLength).take messageLength)

/-- Sends a request through the mailbox and waits for the response, in a message area of its own. -/
def exchange [BlockMemory σ] (limits : PollLimits) (request : AdminRequest) :
    Action σ AdminResponse :=
  withBlock .message areaSize fun area => do
    BlockMemory.fill area request.encode
    post area.iova
    let clear ← awaitClear limits.maxPolls
    if !clear then
      Action.refuse (.timeout (Word.saturate 64 limits.milliseconds))
    let state ← Action.get
    let response := responseIn request.command (BlockMemory.contents area state)
    (response : Except Error _)

end Mailbox

end RateTree
