import RateTree.Bytes

/-!
# Sparse bytes

The bytes of a large file, of which only those that were set are kept; all others are zero.
-/

namespace RateTree

/-- Bytes by offset. -/
structure SparseBytes where
  /-- What was set, newest first. -/
  cells : List (Nat × UInt8)
deriving DecidableEq

namespace SparseBytes

/-- A file of zeros. -/
def zero : SparseBytes := ⟨[]⟩

/-- The byte at an offset, zero unless it was set. -/
def byte (bytes : SparseBytes) (offset : Nat) : UInt8 :=
  (bytes.cells.lookup offset).getD 0

/-- The file with a byte set at an offset. -/
def setByte (bytes : SparseBytes) (offset : Nat) (value : UInt8) : SparseBytes :=
  ⟨(offset, value) :: bytes.cells⟩

/-- The file with bytes set from an offset on. -/
def setBytes (bytes : SparseBytes) (offset : Nat) : List UInt8 → SparseBytes
  | [] => bytes
  | value :: rest => (bytes.setByte offset value).setBytes (offset + 1) rest

/-- The 32-bit word at an offset, the least significant byte first. -/
def word (bytes : SparseBytes) (offset : Nat) : UInt32 :=
  (Bytes.toNat ((List.range 4).map fun position => bytes.byte (offset + position))).toUInt32

/-- The bytes with the 32-bit word at an offset changed. -/
def setWord (bytes : SparseBytes) (offset : Nat) (value : UInt32) : SparseBytes :=
  bytes.setBytes offset (Bytes.ofNat 4 value.toNat)

/-- The bytes in which words are set one after the other, all others being zero. -/
def ofWords (words : List (Nat × UInt32)) : SparseBytes :=
  words.foldl (fun bytes entry => bytes.setWord entry.1 entry.2) zero

/-- The offset behind the last byte that was set. -/
def extent (bytes : SparseBytes) : Nat :=
  bytes.cells.foldr (fun cell reached => max (cell.1 + 1) reached) 0

theorem byte_setByte (bytes : SparseBytes) (offset other : Nat) (value : UInt8) :
    (bytes.setByte offset value).byte other =
      if other = offset then value else bytes.byte other := by
  by_cases same : other = offset
  · simp [byte, setByte, same]
  · simp [byte, setByte, same, List.lookup_cons, beq_eq_false_iff_ne.2 same]

end SparseBytes

end RateTree
