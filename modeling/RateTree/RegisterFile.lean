import RateTree.Device

/-!
# Register files

Registers kept in memory: a register reads as it was last set, and as zero before that. Writes are
also logged, so that a run can be inspected afterwards; `poke` sets a register behind the log's
back.
-/

namespace RateTree

/-- Registers kept in memory, with a log of the writes to them. -/
structure RegisterFile where
  /-- What was set, newest first. -/
  cells : List (Nat × UInt32)
  /-- What was written, newest first. -/
  log : List (Nat × UInt32)
deriving DecidableEq

namespace RegisterFile

/-- Registers that were never written. -/
def empty : RegisterFile := ⟨[], []⟩

/-- The value of a register, zero unless it was written. -/
def read (file : RegisterFile) (offset : Nat) : UInt32 :=
  (file.cells.lookup offset).getD 0

/-- Sets a register without logging it. -/
def poke (file : RegisterFile) (offset : Nat) (value : UInt32) : RegisterFile :=
  { file with cells := (offset, value) :: file.cells }

/-- The registers with one of them written, which goes on record. -/
def write (file : RegisterFile) (offset : Nat) (value : UInt32) : RegisterFile :=
  ⟨(offset, value) :: file.cells, (offset, value) :: file.log⟩

/-- Every write, oldest first. -/
def writes (file : RegisterFile) : List (Nat × UInt32) := file.log.reverse

/-- The writes to offsets from `first` up to but not including `past`, oldest first. -/
def writesIn (file : RegisterFile) (first past : Nat) : List (Nat × UInt32) :=
  file.writes.filter fun entry => first ≤ entry.1 && entry.1 < past

theorem read_poke (file : RegisterFile) (offset other : Nat) (value : UInt32) :
    (file.poke offset value).read other = if other = offset then value else file.read other := by
  by_cases same : other = offset
  · simp [read, poke, same]
  · simp [read, poke, same, List.lookup_cons, beq_eq_false_iff_ne.2 same]

theorem read_write (file : RegisterFile) (offset other : Nat) (value : UInt32) :
    (file.write offset value).read other = if other = offset then value else file.read other :=
  read_poke file offset other value

instance : RegisterAccess RegisterFile where
  readRegister offset := fun file => (.ok (file.read offset), file)
  writeRegister offset value := fun file => (.ok (), file.write offset value)

end RegisterFile

end RateTree
