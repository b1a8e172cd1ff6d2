import RateTree.Admin.Request

/-!
# Admin responses

The firmware's answer to a request, as a record of 32 bytes: it names the command it answers and
says with a status of zero that the command was carried out.
-/

namespace RateTree

/-- A response of the firmware. -/
structure AdminResponse where
  commandId : UInt8
  /-- Zero if the command was carried out. -/
  status : UInt8
deriving DecidableEq

namespace AdminResponse

/-- The command was carried out. -/
def ok (command : AdminCommand) : AdminResponse := ⟨command.id, 0⟩

/-- A response as it is sent, zeros following the status. -/
def encode (response : AdminResponse) : List UInt8 :=
  [0, response.commandId, response.status] ++ Bytes.zeros 29

/-- Reads a response; what follows the status is passed over. -/
def decode (bytes : List UInt8) : Except Error AdminResponse :=
  if bytes.length < messageLength then
    .error (.invalidArgument (.shortResponse bytes.length))
  else
    .ok ⟨(Bytes.field bytes 0x01 1).toUInt8, (Bytes.field bytes 0x02 1).toUInt8⟩

theorem length_encode (response : AdminResponse) : response.encode.length = messageLength := by
  simp [encode, messageLength]

end AdminResponse

end RateTree
