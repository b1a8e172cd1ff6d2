import RateTree.Bytes
import RateTree.Error

/-!
# Admin requests

A request to the firmware, as a record of 32 bytes. `decode` reads back what `encode` has written;
it refuses records that are too short or name no command, and ignores the reserved bytes.
-/

namespace RateTree

/-- The length of a request, and of a response, in bytes. -/
def messageLength : Nat := 32

/-- A request to the firmware. -/
structure AdminRequest where
  command : AdminCommand
  blockSize : UInt16
  /-- The address of the parameter block, zero when there is none. -/
  block : UInt64
  nodeTag : UInt8
  service : UInt8
  /-- How many rings the parameter block lists. -/
  ringCount : UInt8
  nodeIndex : UInt32
deriving DecidableEq

namespace AdminRequest

/-- A command without a node and without parameters. -/
def bare (command : AdminCommand) : AdminRequest :=
  ⟨command, 0, 0, 0, 0, 0, 0⟩

/-- A request as it is sent: numbers are little-endian, and the bytes between the fields are zero. -/
def encode (request : AdminRequest) : List UInt8 :=
  Bytes.ofNat 2 request.blockSize.toNat ++ [0, request.command.id] ++ Bytes.zeros 4 ++
    Bytes.ofNat 8 request.block.toNat ++
    [request.nodeTag, request.service, request.ringCount, 0] ++
    Bytes.ofNat 4 request.nodeIndex.toNat ++ Bytes.zeros 8

/-- Reads a request; what lies behind its length and between its fields is passed over. -/
def decode (bytes : List UInt8) : Except Error AdminRequest :=
  if bytes.length < messageLength then
    .error (.invalidArgument (.shortRequest bytes.length))
  else
    let id := (Bytes.field bytes 0x03 1).toUInt8
    match AdminCommand.ofId? id with
    | none => .error (.invalidArgument (.unknownCommand id))
    | some command => .ok
        { command
          blockSize := (Bytes.field bytes 0x00 2).toUInt16
          block := (Bytes.field bytes 0x08 8).toUInt64
          nodeTag := (Bytes.field bytes 0x10 1).toUInt8
          service := (Bytes.field bytes 0x11 1).toUInt8
          ringCount := (Bytes.field bytes 0x12 1).toUInt8
          nodeIndex := (Bytes.field bytes 0x14 4).toUInt32 }

theorem length_encode (request : AdminRequest) : request.encode.length = messageLength := by
  simp [encode, messageLength]

end AdminRequest

end RateTree
