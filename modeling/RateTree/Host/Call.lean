import RateTree.Host.Memory
import RateTree.Text.Numeral

/-!
# Calls to the kernel

The calls with which a device is reached through the kernel: opening files, reading a link, and the
control requests of the three open files that make up a device. Together with the memory that a
process lays out and frees they are what it does outside of itself.
-/

namespace RateTree

/-- A call to the kernel. -/
inductive HostCall where
  | readLink (path : String)
  | openFile (path : String)
  | apiVersion
  | checkExtension (extension : Nat)
  | groupStatus
  | setContainer
  | setIommu (type : Nat)
  | openDevice (name : String)
  | regionInfo (index : Nat)
  /-- Lets the device see a piece of host memory under an address. -/
  | mapMemory (mapping : DmaMapping)
  | unmapMemory (iova size : Nat)
deriving DecidableEq

namespace HostCall

/-- A control request as it is listed: the open file it goes to, its number, and its arguments. -/
def control (file : String) (request : Nat) (arguments : String) : String :=
  "ioctl " ++ file ++ " " ++ Text.hexNumeral 1 request ++ arguments

/-- The line under which a call is listed. -/
def display : HostCall → String
  | .readLink path => "readlink " ++ path
  | .openFile path => "open " ++ path ++ " rw"
  | .apiVersion => control "container" 0x3B64 ""
  | .checkExtension extension => control "container" 0x3B65 (" " ++ toString extension)
  | .groupStatus => control "group" 0x3B67 " argsz 8 flags 0"
  | .setContainer => control "group" 0x3B68 " container"
  | .setIommu type => control "container" 0x3B66 (" " ++ toString type)
  | .openDevice name => control "group" 0x3B6A (" " ++ name)
  | .regionInfo index => control "device" 0x3B6C (" argsz 32 index " ++ toString index)
  | .mapMemory mapping =>
      control "container" 0x3B71
        (" argsz 32 flags 3 iova " ++ toString mapping.iova ++ " size " ++ toString mapping.size ++
          (if mapping.piece.address % pageSize = 0 then " aligned" else " unaligned"))
  | .unmapMemory iova size =>
      control "container" 0x3B72
        (" argsz 24 flags 0 iova " ++ toString iova ++ " size " ++ toString size)

/-- Whether a call asks for a mapping. -/
def mapsMemory : HostCall → Bool
  | .mapMemory _ => true
  | _ => false

/-- Whether a call asks for a mapping to be removed. -/
def unmapsMemory : HostCall → Bool
  | .unmapMemory _ _ => true
  | _ => false

end HostCall

/-- What a process does outside of itself. -/
inductive HostEvent where
  /-- A call to the kernel with the number of its error, zero if there was none. -/
  | called (call : HostCall) (error : Nat)
  | laidOut (piece : HostPiece)
  /-- A request for memory of a size that the host did not have. -/
  | lacked (size : Nat)
  | freed (piece : HostPiece)
deriving DecidableEq

namespace HostEvent

/-- The call to the kernel that an event is, if it is one. -/
def call? : HostEvent → Option HostCall
  | .called call _ => some call
  | .laidOut _ | .lacked _ | .freed _ => none

/-- Whether memory was requested of the host, granted or not. -/
def requestsMemory : HostEvent → Bool
  | .laidOut _ | .lacked _ => true
  | .called _ _ | .freed _ => false

end HostEvent

end RateTree
