import RateTree.Admin.Parameters
import RateTree.Admin.Request
import RateTree.Admin.Response

/-!
# Simulated firmware

The firmware's side of the admin exchange: it keeps the parameters that are programmed for each
node, and every request it has seen. An agreement is added only where there is none and updated or
deleted only where there is one, and nothing happens before the limiter has been reset. Requests
can be made to fail on the way or to be rejected.
-/

namespace RateTree

/-- One request as the firmware saw it. -/
structure FirmwareRecord where
  request : AdminRequest
  /-- The contents of the parameter block, if the request named one. -/
  parameters : Option SlaParameters
deriving DecidableEq

/-- The state of the firmware. -/
structure Firmware where
  initialised : Bool
  /-- The requests seen so far, newest first. -/
  history : List FirmwareRecord
  /-- The parameters programmed for each node, by level tag and slot index. -/
  configured : List ((UInt8 × UInt32) × SlaParameters)
  /-- How many of the next requests are lost after they have been seen. -/
  failNext : Nat
  /-- How many of the next requests are answered with a refusal. -/
  rejectNext : Nat
deriving DecidableEq

namespace Firmware

/-- The firmware of a device that was just switched on. -/
def fresh : Firmware := ⟨false, [], [], 0, 0⟩

/-- The status of a command that was not carried out. -/
def rejected : UInt8 := 1

/-- Every request seen so far, oldest first. -/
def records (firmware : Firmware) : List FirmwareRecord := firmware.history.reverse

/-- How many requests with a command were seen. -/
def count (firmware : Firmware) (command : AdminCommand) : Nat :=
  firmware.history.countP fun record => record.request.command == command

/-- What was configured last for a node, if it was not deleted since. -/
def parametersOf? (firmware : Firmware) (nodeTag : UInt8) (nodeIndex : UInt32) :
    Option SlaParameters :=
  firmware.configured.lookup (nodeTag, nodeIndex)

/-- Reads the parameter block that a request names, from the memory of the device. -/
def readParameters (memory : Nat → Option (List UInt8)) (request : AdminRequest) :
    Except Error (Option SlaParameters) :=
  if request.block = 0 then .ok none
  else if request.blockSize.toNat < parameterBlockSize then
    .error (.invalidArgument (.shortParameterBlock request.blockSize.toNat))
  else
    match memory request.block.toNat with
    | none => .error (.notFound (.parameterBlock request.block.toNat))
    | some bytes => (SlaParameters.decode bytes request.ringCount.toNat).map some

/-- Carries out a request; the result is its status and the state afterwards. -/
def execute (firmware : Firmware) (request : AdminRequest) (parameters : Option SlaParameters) :
    UInt8 × Firmware :=
  let key := (request.nodeTag, request.nodeIndex)
  let block := parameters.getD .empty
  match request.command with
  | .init => (0, { firmware with initialised := true, configured := [] })
  | .add =>
    if !firmware.initialised || (firmware.configured.lookup key).isSome then (rejected, firmware)
    else (0, { firmware with configured := (key, block) :: firmware.configured })
  | .update =>
    if !firmware.initialised || (firmware.configured.lookup key).isNone then (rejected, firmware)
    else
      (0, { firmware with configured := firmware.configured.map fun (other, old) =>
        (other, if other = key then block else old) })
  | .delete =>
    if !firmware.initialised || (firmware.configured.lookup key).isNone then (rejected, firmware)
    else
      (0, { firmware with configured := firmware.configured.filter fun entry => entry.1 != key })

/-- Answers a request that was put on record: unless it is to fail or to be rejected, it is carried
out. -/
def answer (request : AdminRequest) (parameters : Option SlaParameters) :
    Action Firmware AdminResponse := do
  let firmware ← Action.get
  if 0 < firmware.failNext then
    Action.modify fun firmware => { firmware with failNext := firmware.failNext - 1 }
    Action.refuse (.admin request.command .injected)
  else if 0 < firmware.rejectNext then
    Action.modify fun firmware => { firmware with rejectNext := firmware.rejectNext - 1 }
    return ⟨request.command.id, rejected⟩
  else
    let (status, after) := firmware.execute request parameters
    Action.modify fun _ => after
    return ⟨request.command.id, status⟩

/-- Serves a request: its parameters are read, it is put on record, and it is answered. -/
def serve (memory : Nat → Option (List UInt8)) (request : AdminRequest) :
    Action Firmware AdminResponse := do
  let parameters ← (readParameters memory request : Except Error _)
  Action.modify fun firmware =>
    { firmware with history := ⟨request, parameters⟩ :: firmware.history }
  answer request parameters

/-- Serves a request that arrives as bytes. -/
def receive (memory : Nat → Option (List UInt8)) (message : List UInt8) :
    Action Firmware AdminResponse := do
  let request ← (AdminRequest.decode message : Except Error _)
  serve memory request

end Firmware

end RateTree
