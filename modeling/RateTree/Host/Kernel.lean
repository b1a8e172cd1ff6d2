import RateTree.Action
import RateTree.Host.Call
import RateTree.Memory.Sparse

/-!
# The kernel

What a kernel answers to the calls of a device's driver, and what it keeps while it answers: a journal
of what the process did, the file behind the registers of the device, and the pieces of memory that
the device can see. Error numbers are zero for success; the answers to requests for memory and to the
calls that map and unmap it are listed one by one, success following the last.
-/

namespace RateTree

/-- What a kernel answers. -/
structure KernelAnswers where
  /-- The error of reading the link from a device to its IOMMU group. -/
  linkError : Nat
  linkTarget : String
  containerError : Nat
  groupError : Nat
  apiVersion : Int
  extension : Int
  statusError : Nat
  statusFlags : Nat
  setContainerError : Nat
  setIommuError : Nat
  deviceError : Nat
  regionError : Nat
  regionSize : Nat
  /-- Where the region of a device starts in the file behind its registers. -/
  regionOffset : Nat
  /-- Whether the host lacks the memory that is requested, in the order of the requests. It may do so
  at any size, and may have memory of any size. -/
  lacksMemory : List Bool
  /-- The errors of the calls that map memory, in order. -/
  mapErrors : List Nat
  /-- The errors of the calls that unmap memory, in order. -/
  unmapErrors : List Nat
  resourceError : Nat
  /-- The size that a resource file was given; bytes set behind its end make it larger. -/
  resourceSize : Nat
deriving DecidableEq

/-- The answers of a kernel that refuses nothing, for a device with registers of the given size. -/
def KernelAnswers.willing (size : Nat) : KernelAnswers where
  linkError := 0
  linkTarget := "../../../../kernel/iommu_groups/42"
  containerError := 0
  groupError := 0
  apiVersion := 0
  extension := 1
  statusError := 0
  statusFlags := 1
  setContainerError := 0
  setIommuError := 0
  deviceError := 0
  regionError := 0
  regionSize := size
  regionOffset := 0
  lacksMemory := []
  mapErrors := []
  unmapErrors := []
  resourceError := 0
  resourceSize := size

/-- A kernel and what it has done so far. -/
structure Kernel where
  answers : KernelAnswers
  /-- What the process has done so far, newest first. -/
  journal : List HostEvent
  registers : SparseBytes
  /-- The memory the device can see, newest first. -/
  mappings : List DmaMapping
deriving DecidableEq

namespace Kernel

/-- A kernel that was not called yet. -/
def fresh (answers : KernelAnswers) (registers : SparseBytes) : Kernel :=
  ⟨answers, [], registers, []⟩

/-- The size of a resource file, which holds at least what was set in it. -/
def resourceSize (kernel : Kernel) : Nat :=
  max kernel.answers.resourceSize kernel.registers.extent

/-- The calls made so far, newest first. -/
def history (kernel : Kernel) : List HostCall := kernel.journal.filterMap HostEvent.call?

/-- Every call made so far, oldest first. -/
def calls (kernel : Kernel) : List HostCall := kernel.history.reverse

/-- The kernel after one more event. -/
def record (event : HostEvent) (kernel : Kernel) : Kernel :=
  { kernel with journal := event :: kernel.journal }

/-- Makes a call that ends with an error number; a refusal is reported as `report` says. -/
def ask (call : HostCall) (number : KernelAnswers → Nat) (report : HostError → Error) :
    Action Kernel Unit := do
  let kernel ← Action.get
  Action.modify (record (.called call (number kernel.answers)))
  ((HostError.check (number kernel.answers)).mapError report : Except Error Unit)

/-- Makes a call with a path, which never reaches the kernel if a NUL byte is in the way. -/
def askPath (call : String → HostCall) (path : String) (number : KernelAnswers → Nat)
    (report : HostError → Error) : Action Kernel Unit :=
  if path.toList.contains '\x00' then Action.refuse (report .nulInFileName)
  else ask (call path) number report

/-- How often a link is read after the first time. It is read into a buffer of 256 bytes, and as
long as the target fills the buffer, which may have cut it off, again into one of twice the size. -/
def linkRereads (targetSize : Nat) : Nat :=
  if targetSize < 256 then 0 else 1 + Nat.log2 (targetSize / 256)

/-- Reads a link, in as many calls as its target takes. -/
def readLink (path : String) (report : HostError → Error) : Action Kernel String := do
  askPath .readLink path KernelAnswers.linkError report
  let kernel ← Action.get
  let target := kernel.answers.linkTarget
  Action.modify (Nat.repeat (record (.called (.readLink path) 0)) (linkRereads target.utf8ByteSize))
  return target

/-- Opens a file, which has to be there. -/
def openFile (path : String) (number : KernelAnswers → Nat) : Action Kernel Unit :=
  askPath .openFile path number fun cause => .notFound (.file path cause)

/-- Makes a control request, named for the report of a refusal. -/
def control (what : String) (call : HostCall) (number : KernelAnswers → Nat) :
    Action Kernel Unit :=
  ask call number fun cause => .internal (.request what cause)

/-- Whether the host lacks the memory that is requested next. -/
def nextLacksMemory (kernel : Kernel) : Bool :=
  kernel.answers.lacksMemory.getD (kernel.journal.countP HostEvent.requestsMemory) false

/-- The error number of the next call that maps memory. -/
def nextMapError (kernel : Kernel) : Nat :=
  kernel.answers.mapErrors.getD (kernel.history.countP HostCall.mapsMemory) 0

/-- The error number of the next call that unmaps memory. -/
def nextUnmapError (kernel : Kernel) : Nat :=
  kernel.answers.unmapErrors.getD (kernel.history.countP HostCall.unmapsMemory) 0

/-- Lets the device see a piece of memory under an address, unless the kernel refuses. -/
def mapMemory (mapping : DmaMapping) : Action Kernel Unit := do
  let kernel ← Action.get
  control "VFIO map DMA" (.mapMemory mapping) fun _ => kernel.nextMapError
  Action.modify fun kernel => { kernel with mappings := mapping :: kernel.mappings }

/-- Takes a piece of memory out of the device's sight; tells whether the kernel did. -/
def unmapMemory (iova size : Nat) (kernel : Kernel) : Bool × Kernel :=
  let after := kernel.record (.called (.unmapMemory iova size) kernel.nextUnmapError)
  if kernel.nextUnmapError = 0 then
    let mappings := after.mappings.filter fun mapping => mapping.iova != iova || mapping.size != size
    (true, { after with mappings })
  else (false, after)

end Kernel

end RateTree
