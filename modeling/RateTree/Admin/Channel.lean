import RateTree.Admin.Parameters
import RateTree.Admin.Request
import RateTree.Admin.Response
import RateTree.Device

/-!
# The admin channel

How a limiter talks to the firmware. A request is exchanged for a response, which has to answer the
same command with a status of zero. The parameters of an agreement travel in a block of memory that
is handed out for the one request and taken back after it, whatever comes of it.
-/

namespace RateTree

/-- A way to exchange a request for a response. -/
class AdminTransport (σ : Type) where
  exchange : AdminRequest → Action σ AdminResponse

namespace AdminChannel

variable {σ : Type} [AdminTransport σ]

/-- An error of the transport as the caller of a command sees it: what is not a matter of the
exchange itself becomes one. -/
def carrierError (command : AdminCommand) : Error → Error
  | .timeout milliseconds => .timeout milliseconds
  | .admin failed cause => .admin failed cause
  | other => .admin command (.carrier other.message)

/-- Exchanges a request for the response that it was carried out. -/
def roundTrip (request : AdminRequest) : Action σ Unit := do
  let response ←
    (AdminTransport.exchange request).mapError (carrierError request.command)
  if response.commandId ≠ request.command.id then
    Action.refuse (.admin request.command (.foreignResponse response.commandId))
  else if response.status ≠ 0 then
    Action.refuse (.admin request.command (.status response.status))
  else
    pure ()

/-- Asks the firmware to reset the limiter. -/
def sendInit : Action σ Unit :=
  roundTrip (.bare .init)

/-- The rings as the parameter block lists them. -/
def ringIds (rings : List Nat) : Except Error (List UInt16) :=
  if maxRings < rings.length then .error (.invalidArgument (.tooManyRings rings.length))
  else if rings.any fun ring => 0x10000 ≤ ring then .error (.invalidArgument .ringTooLarge)
  else .ok (rings.map Nat.toUInt16)

/-- The request for a command on a node's agreement, with its parameters at an address. -/
def slaRequest (command : AdminCommand) (kind : NodeKind) (node : NodeId) (service : Service)
    (rings : Nat) (iova : Nat) : AdminRequest where
  command
  blockSize := parameterBlockSize.toUInt16
  block := iova.toUInt64
  nodeTag := kind.tag.toUInt8
  service := service.index.toUInt8
  ringCount := rings.toUInt8
  nodeIndex := node.index.toUInt32

/-- Has the firmware carry out a command on the agreement of a node. The tokens and rings are
written to the parameter block unless the agreement is to be deleted. -/
def sendSla [BlockMemory σ] (command : AdminCommand) (node : NodeId) (service : Service)
    (tokens : Tokens) (rings : List Nat) : Action σ Unit := do
  if command = .init then
    Action.refuse (.invalidArgument .initNotSlaCommand)
  match node.kind? with
  | none => Action.refuse (.invalidArgument (.unknownNodeId node))
  | some kind => do
    let ids ← (ringIds rings : Except Error _)
    withBlock .parameters parameterBlockSize fun block => do
      if command ≠ .delete then
        BlockMemory.fill block (SlaParameters.encode ⟨tokens, ids⟩)
      roundTrip (slaRequest command kind node service ids.length block.iova)

end AdminChannel

end RateTree
