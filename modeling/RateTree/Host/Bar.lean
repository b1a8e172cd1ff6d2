import RateTree.Device
import RateTree.Host.Kernel
import RateTree.Memory.Pool

/-!
# Mapped registers

The registers of a device as a window onto a file: the resource file of the device, or the region
that an open device offers. An access has to stay within the window; one that does not is a fault.
-/

namespace RateTree

/-- A window onto the registers of a device. -/
structure MappedBar where
  /-- The number of the base address register that the window belongs to. -/
  bar : Nat
  size : Nat
  start : Nat
deriving DecidableEq

namespace MappedBar

/-- The bytes that the address space of a process has room for below the program. A process has
0x800000000000 bytes but for the last page, and the program lies at two thirds of them. -/
def mappingLimit : Nat := 2 * (0x800000000000 - pageSize) / 3

/-- The largest offset in a file. -/
def maxFileOffset : Nat := 0x7FFFFFFFFFFFFFFF

/-- Whether a mapping of whole pages from a start on goes on where no file has an offset. -/
def reachesPastFiles (size start : Nat) : Bool :=
  let span := (size + pageSize - 1) / pageSize * pageSize
  (maxFileOffset - span) / pageSize < start / pageSize

/-- The error number of mapping a window beside one that is still mapped: it must start on a page
boundary and must not be empty, the address space must have room for both, and it must not reach
past the pages that a file can have. -/
def mappingError (size start : Nat) (beside : Option MappedBar) : Nat :=
  let taken := (beside.map MappedBar.size).getD 0
  if start % pageSize ≠ 0 ∨ size = 0 then 22
  else if mappingLimit < size + taken then 12
  else if reachesPastFiles size start then 75
  else 0

/-- The window of a given size and start, mapped beside one that is still mapped. -/
def map (bar size start : Nat) (beside : Option MappedBar) : Except Error MappedBar := do
  (HostError.check (mappingError size start beside)).mapError fun cause =>
    .internal (.request ("mmap BAR" ++ toString bar) cause)
  return ⟨bar, size, start⟩

/-- The file through which a region of a device is mapped without opening the device. -/
def resourcePath (address : String) (bar : Nat) : String :=
  "/sys/bus/pci/devices/" ++ address ++ "/resource" ++ toString bar

/-- Maps the resource file of the device at an address. -/
def ofResource (address : String) (bar : Nat) : Action Kernel MappedBar := do
  Kernel.openFile (resourcePath address bar) KernelAnswers.resourceError
  let kernel ← Action.get
  let size := kernel.resourceSize
  if size = 0 then
    Action.refuse (.internal (.emptyFile (resourcePath address bar)))
  (map bar size 0 none : Except Error MappedBar)

/-- Maps a region of an open device, beside a window that is still mapped. -/
def ofRegion (bar : Nat) (beside : Option MappedBar) : Action Kernel MappedBar := do
  Kernel.control ("BAR" ++ toString bar ++ " region info") (.regionInfo bar)
    KernelAnswers.regionError
  let kernel ← Action.get
  let answers := kernel.answers
  (map bar answers.regionSize answers.regionOffset beside : Except Error MappedBar)

/-- Whether the register at an offset lies within the window. -/
def inBounds (window : MappedBar) (offset : Nat) : Bool := offset + 4 ≤ window.size

/-- Reads a register; outside of the window this is a fault. -/
def read (window : MappedBar) (offset : Nat) : Action Kernel UInt32 := fun kernel =>
  if window.inBounds offset then (.ok (kernel.registers.word (window.start + offset)), kernel)
  else (.error (.fault (.registerOutOfBounds offset)), kernel)

/-- Writes a register; outside of the window this is a fault. -/
def write (window : MappedBar) (offset : Nat) (value : UInt32) : Action Kernel Unit := fun kernel =>
  if window.inBounds offset then
    (.ok (), { kernel with
      registers := kernel.registers.setWord (window.start + offset) value })
  else (.error (.fault (.registerOutOfBounds offset)), kernel)

/-- The window as it is shown, given the text for the place it is mapped at. -/
def describe (window : MappedBar) (place : String) : String :=
  "MappedBar \x7b ptr: " ++ place ++ ", size: " ++ toString window.size ++ ", bar: " ++
    toString window.bar ++ ", .. \x7d"

end MappedBar

/-- A window together with the kernel that serves it. -/
structure RegisterWindow where
  kernel : Kernel
  window : MappedBar

/-- The registers that a window shows. -/
instance : RegisterAccess RegisterWindow where
  readRegister offset := fun state =>
    Action.focus RegisterWindow.kernel (fun state kernel => { state with kernel })
      (state.window.read offset) state
  writeRegister offset value := fun state =>
    Action.focus RegisterWindow.kernel (fun state kernel => { state with kernel })
      (state.window.write offset value) state

end RateTree
