import RateTree.Memory.Pool

/-!
# Host memory

Memory of the process that a device can be let see. Pieces of it lie on whole pages, one above the
other and never twice in one place; a piece that has been freed is gone. Writing goes to an address,
whatever lies there.
-/

namespace RateTree

/-- A piece of host memory. -/
structure HostPiece where
  address : Nat
  size : Nat
deriving DecidableEq

/-- A piece of host memory, and the address under which a device sees it. -/
structure DmaMapping where
  iova : Nat
  piece : HostPiece
deriving DecidableEq

/-- The size of what the device sees. -/
def DmaMapping.size (mapping : DmaMapping) : Nat := mapping.piece.size

/-- The memory that was laid out for a device, with all that was written to it. -/
structure HostMemory where
  /-- The pieces that are not freed, newest first. -/
  pieces : List HostPiece
  /-- How many pages lie below the next piece. -/
  pages : Nat
  /-- The address and the bytes of each write, newest first. -/
  writes : List (Nat × List UInt8)
  /-- Every piece starts with a page and lies below the next one. -/
  placed : ∀ piece ∈ pieces,
    pageSize ∣ piece.address ∧ piece.address + piece.size ≤ pages * pageSize
  /-- A newer piece lies above an older one. -/
  apart : pieces.Pairwise fun newer older => older.address + older.size ≤ newer.address
deriving DecidableEq

namespace HostMemory

/-- Nothing lies on the first page. -/
def empty : HostMemory where
  pieces := []
  pages := 1
  writes := []
  placed := by simp
  apart := .nil

/-- The byte at an address: the last one written there, or zero. -/
def byte (memory : HostMemory) (address : Nat) : UInt8 :=
  memory.writes.foldr (fun (start, data) older =>
    if start ≤ address then data.getD (address - start) older else older) 0

/-- Where the next piece goes. -/
def next (memory : HostMemory) : Nat := memory.pages * pageSize

/-- The piece that is laid out next. -/
def nextPiece (memory : HostMemory) (size : Nat) : HostPiece := ⟨memory.next, size⟩

/-- The memory with the next piece laid out. -/
def layOut (memory : HostMemory) (size : Nat) : HostMemory where
  pieces := memory.nextPiece size :: memory.pieces
  pages := memory.pages + (size + pageSize - 1) / pageSize
  writes := memory.writes
  placed := by
    intro piece mem
    rw [Nat.add_mul]
    rcases List.mem_cons.1 mem with rfl | older
    · exact ⟨Nat.dvd_mul_left _ _, Nat.add_le_add_left (le_wholePages size) _⟩
    · have placed := memory.placed piece older
      exact ⟨placed.1, Nat.le_trans placed.2 (Nat.le_add_right _ _)⟩
  apart := List.pairwise_cons.2 ⟨fun piece mem => (memory.placed piece mem).2, memory.apart⟩

/-- The memory with bytes written from an address on. -/
def write (memory : HostMemory) (address : Nat) (data : List UInt8) : HostMemory :=
  { memory with writes := (address, data) :: memory.writes }

/-- The memory without a piece of it. What was written there stays on record, and nothing is laid out there
again. -/
def free (memory : HostMemory) (piece : HostPiece) : HostMemory where
  pieces := memory.pieces.filter fun other => other != piece
  pages := memory.pages
  writes := memory.writes
  placed := fun other mem => memory.placed other (List.mem_filter.1 mem).1
  apart := memory.apart.filter _

theorem next_layOut (memory : HostMemory) (size : Nat) :
    (memory.layOut size).next = memory.next + wholePages size := Nat.add_mul ..

variable {memory : HostMemory} {start address : Nat} {data : List UInt8}

theorem byte_write :
    (memory.write start data).byte address =
      if start ≤ address then data.getD (address - start) (memory.byte address)
      else memory.byte address := rfl

theorem byte_write_inside (position : Nat) (inside : position < data.length) :
    (memory.write start data).byte (start + position) = data[position] := by
  simp [byte_write, inside]

theorem byte_write_outside (outside : address < start ∨ start + data.length ≤ address) :
    (memory.write start data).byte address = memory.byte address := by
  rw [byte_write]
  split
  · have past : data.length ≤ address - start := by omega
    simp [past]
  · rfl

end HostMemory

end RateTree
