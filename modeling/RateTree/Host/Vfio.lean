import RateTree.Admin.Mailbox
import RateTree.Host.Bar
import RateTree.Text.Blank

/-!
# Devices behind an IOMMU

A device that is driven from user space: it is opened by joining its IOMMU group to a container, and
it sees memory only where the container maps it. Blocks of memory take up whole pages at addresses
that are handed out upward and never twice. A block that is released is unmapped; if the kernel does
not unmap it, the device may still reach the memory, which is then kept instead of freed. Memory that
the host has can always be locked.
-/

namespace RateTree

/-- A piece of host memory that a device can see, and the memory that it is a piece of. -/
structure PinnedRegion where
  mapping : DmaMapping
  memory : HostMemory
deriving DecidableEq

namespace PinnedRegion

/-- The size of a region. -/
def size (region : PinnedRegion) : Nat := region.mapping.size

/-- The bytes from an offset up to another one. -/
def slice (region : PinnedRegion) (first past : Nat) : List UInt8 :=
  (List.range' first (min past region.size - first)).map fun offset =>
    region.memory.byte (region.mapping.piece.address + offset)

/-- All bytes of a region. -/
def contents (region : PinnedRegion) : List UInt8 := region.slice 0 region.size

end PinnedRegion

/-- An open device and its memory. -/
structure VfioDevice where
  /-- The address the device was opened under. -/
  address : String
  next : Nat
  /-- The memory of the blocks in use, oldest first. -/
  held : List DmaMapping
  /-- The memory that the kernel did not unmap. -/
  leaked : List DmaMapping
  memory : HostMemory
deriving DecidableEq

namespace VfioDevice

/-- The first address that is handed out. -/
def firstAddress : Nat := 0x10000000

/-- The link to the IOMMU group of a device. -/
def groupLinkPath (address : String) : String :=
  "/sys/bus/pci/devices/" ++ address ++ "/iommu_group"

/-- The last component of a path, if it is a name. -/
def lastName? (path : String) : Option (List Char) :=
  let named (component : List Char) : Bool := !component.isEmpty && component != ['.']
  match ((Text.splitOn '/' path.toList).filter named).getLast? with
  | none | some ['.', '.'] => none
  | some name => some name

/-- The number of a group, which is the name that the link to it ends in. -/
def groupNumber (target : String) : Except Error Nat :=
  match (lastName? target).map Text.readNumeral with
  | some (.ok group) => .ok group
  | _ => .error (.internal (.badGroupLink target))

/-- The number of the IOMMU group of a device. -/
def findGroup (address : String) : Action Kernel Nat := do
  let target ← Kernel.readLink (groupLinkPath address) fun cause =>
    .notFound (.iommuGroup (groupLinkPath address) cause)
  (groupNumber target : Except Error Nat)

/-- Opens the container and checks that it can serve a device. -/
def openContainer : Action Kernel Unit := do
  Kernel.openFile "/dev/vfio/vfio" KernelAnswers.containerError
  let kernel ← Action.get
  Action.modify (Kernel.record (.called .apiVersion 0))
  if kernel.answers.apiVersion ≠ 0 then
    Action.refuse (.internal (.apiVersion kernel.answers.apiVersion))
  Action.modify (Kernel.record (.called (.checkExtension 3) 0))
  if kernel.answers.extension ≠ 1 then
    Action.refuse (.internal .iommuUnsupported)

/-- Opens an IOMMU group, all of whose devices must be free to use. -/
def openGroup (group : Nat) : Action Kernel Unit := do
  Kernel.openFile ("/dev/vfio/" ++ toString group) KernelAnswers.groupError
  let kernel ← Action.get
  Action.modify (Kernel.record (.called .groupStatus kernel.answers.statusError))
  if kernel.answers.statusError ≠ 0 ∨ kernel.answers.statusFlags % 2 = 0 then
    Action.refuse (.internal (.groupNotViable group))

/-- Opens the device at an address. -/
def openAt (address : String) : Action Kernel VfioDevice := do
  let group ← findGroup address
  openContainer
  openGroup group
  Kernel.control "VFIO set container" .setContainer KernelAnswers.setContainerError
  Kernel.control "VFIO set IOMMU" (.setIommu 3) KernelAnswers.setIommuError
  Kernel.control "VFIO device fd" (.openDevice address) KernelAnswers.deviceError
  return ⟨address, firstAddress, [], [], .empty⟩

/-- What the device sees of the block at an address, if the block is in use. -/
def mapping? (device : VfioDevice) (iova : Nat) : Option DmaMapping :=
  device.held.find? fun mapping => mapping.iova == iova

/-- The region of a block that is in use. -/
def region? (device : VfioDevice) (iova : Nat) : Option PinnedRegion :=
  (device.mapping? iova).map fun mapping => ⟨mapping, device.memory⟩

/-- The largest size that host memory can be laid out in, a multiple of the page size. -/
def layoutLimit : Nat := 0x8000000000000000 - pageSize

end VfioDevice

/-- An open device together with the kernel that serves it. -/
structure VfioSession where
  kernel : Kernel
  device : VfioDevice

namespace VfioSession

/-- Makes calls to the kernel. -/
def onKernel {α : Type} (action : Action Kernel α) : Action VfioSession α :=
  Action.focus VfioSession.kernel (fun session kernel => { session with kernel }) action

/-- Takes a range of addresses for a block; it is never given back. -/
def reserve (span : Nat) : Action VfioSession Nat := do
  let session ← Action.get
  let iova := session.device.next
  if 0x10000000000000000 ≤ iova + span then
    Action.refuse (.internal .addressesExhausted)
  Action.modify fun session =>
    { session with device := { session.device with next := iova + span } }
  return iova

/-- Lays out host memory for a block, if its size can be laid out and the host has the memory. -/
def layOut (span : Nat) : Action VfioSession HostPiece := do
  if VfioDevice.layoutLimit < span then
    Action.refuse (.invalidArgument .blockLayout)
  let session ← Action.get
  if session.kernel.nextLacksMemory then
    Action.modify fun session => { session with kernel := session.kernel.record (.lacked span) }
    Action.refuse (.internal .outOfMemory)
  let piece := session.device.memory.nextPiece span
  Action.modify fun session =>
    { kernel := session.kernel.record (.laidOut piece)
      device := { session.device with memory := session.device.memory.layOut span } }
  return piece

/-- The session with a piece of host memory freed. -/
def free (piece : HostPiece) (session : VfioSession) : VfioSession where
  kernel := session.kernel.record (.freed piece)
  device := { session.device with memory := session.device.memory.free piece }

/-- Lets the device see new host memory under an address; what the kernel does not map is freed. -/
def pin (iova span : Nat) : Action VfioSession DmaMapping := do
  let piece ← layOut span
  (onKernel (Kernel.mapMemory ⟨iova, piece⟩)).undoOnError (Action.modify (free piece))
  return ⟨iova, piece⟩

/-- Hands out a block of whole pages filled with zeros. -/
def allocate (size : Nat) : Action VfioSession Block := do
  if size = 0 then
    Action.refuse (.invalidArgument .emptyBlock)
  let span ← (pageSpan size : Except Fault Nat)
  let iova ← reserve span
  let mapping ← pin iova span
  Action.modify fun session =>
    { session with device := { session.device with held := session.device.held ++ [mapping] } }
  return ⟨iova, span⟩

/-- Writes bytes into a block from an offset on, if they stay within it. -/
def write (iova offset : Nat) (data : List UInt8) : Action VfioSession Unit := do
  let session ← Action.get
  match session.device.mapping? iova with
  | none => Action.refuse (.notFound (.block iova))
  | some mapping =>
    if mapping.size < offset + data.length then
      Action.refuse (.invalidArgument (.writePastEnd iova))
    else
      Action.modify fun session =>
        let memory := session.device.memory.write (mapping.piece.address + offset) data
        { session with device := { session.device with memory } }

/-- Writes bytes into a block from its start on. -/
def fill (iova : Nat) (data : List UInt8) : Action VfioSession Unit := write iova 0 data

/-- Releases a block: its memory is unmapped and freed, or kept if the kernel does not unmap it. -/
def release (iova : Nat) (session : VfioSession) : VfioSession :=
  match session.device.mapping? iova with
  | none => session
  | some mapping =>
    let held := session.device.held.filter fun other => other.iova != iova
    let (unmapped, kernel) := session.kernel.unmapMemory mapping.iova mapping.size
    if unmapped then VfioSession.free mapping.piece ⟨kernel, { session.device with held }⟩
    else ⟨kernel, { session.device with held, leaked := mapping :: session.device.leaked }⟩

/-- Releases every block in use, oldest first. -/
def close (session : VfioSession) : VfioSession :=
  (session.device.held.map DmaMapping.iova).foldl (fun session iova => session.release iova)
    session

end VfioSession

/-- An open device with its registers mapped: all that an exchange through the mailbox takes. -/
structure VfioMailbox where
  session : VfioSession
  window : MappedBar
  limits : PollLimits

namespace VfioMailbox

/-- Runs an action on the device behind a mailbox. -/
def onSession {α : Type} (action : Action VfioSession α) : Action VfioMailbox α :=
  Action.focus VfioMailbox.session (fun mailbox session => { mailbox with session }) action

/-- The registers are those in the window of the device. -/
instance : RegisterAccess VfioMailbox where
  readRegister offset := fun mailbox =>
    onSession (VfioSession.onKernel (mailbox.window.read offset)) mailbox
  writeRegister offset value := fun mailbox =>
    onSession (VfioSession.onKernel (mailbox.window.write offset value)) mailbox

/-- The blocks are those of the device, for any use. -/
instance : BlockMemory VfioMailbox where
  allocate _ size := onSession (VfioSession.allocate size)
  fill block data := onSession (VfioSession.fill block.iova data)
  contents block mailbox :=
    ((mailbox.session.device.region? block.iova).map PinnedRegion.contents).getD []
  release block mailbox := { mailbox with session := mailbox.session.release block.iova }

/-- Requests go through the mailbox in the registers of the device. -/
instance : AdminTransport VfioMailbox where
  exchange request := fun mailbox => Mailbox.exchange mailbox.limits request mailbox

end VfioMailbox

end RateTree
