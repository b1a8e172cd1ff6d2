import RateTree.Bytes
import RateTree.Device

/-!
# Memory pools

Memory for the blocks of a simulated device. Addresses are handed out from a fixed one upward, page
by page, and never twice; a block that has been freed is gone. `read` is the view of a pool as a
map from addresses to contents. A block is kept as what was written into it, so that its size does
not matter as long as nobody looks at the whole of it.
-/

namespace RateTree

/-- Blocks start at multiples of a page and take up whole pages. -/
def pageSize : Nat := 4096

/-- The bytes of the whole pages that a number of bytes takes up. -/
def wholePages (size : Nat) : Nat := (size + pageSize - 1) / pageSize * pageSize

/-- The bytes of the whole pages that a number of bytes takes up, in 64-bit words. -/
def pageSpan (size : Nat) : Except Fault Nat :=
  Word.mul 64 ((size + pageSize - 1) / pageSize) pageSize

theorem le_wholePages (size : Nat) : size ≤ wholePages size := by
  simp only [wholePages, pageSize]
  omega

theorem pageSize_dvd_wholePages (size : Nat) : pageSize ∣ wholePages size :=
  Nat.dvd_mul_left pageSize _

/-- Bytes with others in their place from an offset on. -/
def overwrite (bytes : List UInt8) (offset : Nat) (data : List UInt8) : List UInt8 :=
  bytes.take offset ++ data ++ bytes.drop (offset + data.length)

/-- A block in use. -/
structure PoolBlock where
  iova : Nat
  size : Nat
  /-- The offset and the bytes of each write, newest first. -/
  writes : List (Nat × List UInt8)
deriving DecidableEq

namespace PoolBlock

/-- What the block holds: zeros, and over them what was written. -/
def contents (block : PoolBlock) : List UInt8 :=
  block.writes.foldr (fun (offset, data) bytes => overwrite bytes offset data)
    (Bytes.zeros block.size)

/-- A block with bytes written from an offset on. -/
def write (block : PoolBlock) (offset : Nat) (data : List UInt8) : PoolBlock :=
  { block with writes := (offset, data) :: block.writes }

theorem contents_write (block : PoolBlock) (offset : Nat) (data : List UInt8) :
    (block.write offset data).contents = overwrite block.contents offset data := rfl

end PoolBlock

/-- The first address that a pool hands out. -/
def firstAddress : Nat := 0x100000000

/-- Blocks of memory by address. -/
structure Pool where
  /-- The blocks in use, newest first. -/
  blocks : List PoolBlock
  /-- How far above the first address the next block goes. -/
  next : Nat
  /-- How many blocks were ever handed out. -/
  allocated : Nat
  aligned : pageSize ∣ next
  /-- Every block has bytes, starts with a page and lies below the next address. -/
  placed : ∀ block ∈ blocks,
    0 < block.size ∧ pageSize ∣ block.iova ∧ block.iova + block.size ≤ firstAddress + next
  /-- A newer block lies above an older one. -/
  apart : blocks.Pairwise fun newer older => older.iova + older.size ≤ newer.iova
deriving DecidableEq

namespace Pool

/-- No block has been handed out. -/
def empty : Pool where
  blocks := []
  next := 0
  allocated := 0
  aligned := Nat.dvd_zero _
  placed := by simp
  apart := .nil

/-- The block in use that starts at an address. -/
def block? (pool : Pool) (iova : Nat) : Option PoolBlock :=
  pool.blocks.find? fun block => block.iova == iova

/-- The bytes of the block that starts at an address. -/
def read (pool : Pool) (iova : Nat) : Option (List UInt8) :=
  (pool.block? iova).map PoolBlock.contents

/-- How many blocks are handed out and not released. -/
def outstanding (pool : Pool) : Nat := pool.blocks.length

/-- The size from which on there is no memory for a block. -/
def sizeLimit : Nat := 0x8000000000000000

/-- The pool with the addresses of a block used up. -/
def reserve (pool : Pool) (size : Nat) : Pool where
  blocks := pool.blocks
  next := pool.next + wholePages size
  allocated := pool.allocated + 1
  aligned := Nat.dvd_add pool.aligned (pageSize_dvd_wholePages size)
  placed := fun block mem => by
    have := pool.placed block mem
    omega
  apart := pool.apart

/-- The address of the next block. -/
def nextAddress (pool : Pool) : Nat := firstAddress + pool.next

/-- The pool with a block of zeros at the next address. -/
def push (pool : Pool) (size : Nat) (positive : 0 < size) : Pool where
  blocks := ⟨pool.nextAddress, size, []⟩ :: pool.blocks
  next := pool.next + wholePages size
  allocated := pool.allocated + 1
  aligned := Nat.dvd_add pool.aligned (pageSize_dvd_wholePages size)
  placed := by
    have fits := le_wholePages size
    intro block mem
    rcases List.mem_cons.1 mem with rfl | older
    · refine ⟨positive, Nat.dvd_add ⟨0x100000, by decide⟩ pool.aligned, ?_⟩
      simp only [nextAddress]
      omega
    · have := pool.placed block older
      omega
  apart := List.pairwise_cons.2 ⟨fun block mem => (pool.placed block mem).2.2, pool.apart⟩

/-- Checks that the addresses of a block of a given size are 64-bit words. -/
def checkAddresses (pool : Pool) (size : Nat) : Except Fault Unit := do
  let _ ← Word.add 64 firstAddress pool.next
  let span ← pageSpan size
  let _ ← Word.add 64 pool.next span

/-- Hands out a block of zeros. For a block that is too large its addresses are used up before that
is found out. -/
def allocate (size : Nat) : Action Pool Block := fun pool =>
  if empty : size = 0 then (.error (.error (.invalidArgument .emptyBlock)), pool)
  else
    match pool.checkAddresses size with
    | .error cause => (.error (.fault cause), pool)
    | .ok () =>
      if sizeLimit ≤ size then (.error (.fault .blockTooLarge), pool.reserve size)
      else (.ok ⟨pool.nextAddress, size⟩, pool.push size (Nat.pos_of_ne_zero empty))

/-- The pool with bytes written into the block at an address, from an offset on. -/
def overwriteBlock (pool : Pool) (iova offset : Nat) (data : List UInt8) : Pool where
  blocks := pool.blocks.map fun other =>
    if other.iova = iova then other.write offset data else other
  next := pool.next
  allocated := pool.allocated
  aligned := pool.aligned
  placed := by
    intro block mem
    rcases List.mem_map.1 mem with ⟨other, other_mem, rfl⟩
    have := pool.placed other other_mem
    split <;> simpa [PoolBlock.write] using this
  apart := by
    apply List.pairwise_map.2
    apply pool.apart.imp
    intro newer older below
    split <;> split <;> simpa [PoolBlock.write] using below

/-- Writes bytes into a block from an offset on, if they stay within it. -/
def write (iova offset : Nat) (data : List UInt8) : Action Pool Unit := fun pool =>
  match pool.block? iova with
  | none => (.error (.error (.notFound (.block iova))), pool)
  | some block =>
    if block.size < offset + data.length then
      (.error (.error (.invalidArgument (.writePastEnd iova))), pool)
    else (.ok (), pool.overwriteBlock iova offset data)

/-- The pool without the block that starts at an address. -/
def free (pool : Pool) (iova : Nat) : Pool where
  blocks := pool.blocks.filter fun block => block.iova != iova
  next := pool.next
  allocated := pool.allocated
  aligned := pool.aligned
  placed := fun block mem => pool.placed block (List.mem_filter.1 mem).1
  apart := pool.apart.filter _

end Pool

end RateTree
