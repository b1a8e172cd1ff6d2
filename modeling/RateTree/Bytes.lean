/-!
# Little-endian bytes

Numbers as bytes, the least significant byte first, and the fields of a record by offset and width.
A number that fits the width is read back as it was written, and bytes are written back as they
were read.
-/

namespace RateTree.Bytes

/-- The lowest bytes of a number, the least significant first. -/
def ofNat : (width : Nat) → (value : Nat) → List UInt8
  | 0, _ => []
  | width + 1, value => UInt8.ofNat value :: ofNat width (value / 256)

/-- The number that bytes stand for, the least significant first. -/
def toNat : List UInt8 → Nat
  | [] => 0
  | byte :: rest => byte.toNat + 256 * toNat rest

/-- How many numbers a width can hold. -/
def limit : (width : Nat) → Nat
  | 0 => 1
  | width + 1 => 256 * limit width

/-- A number of zero bytes. -/
def zeros (count : Nat) : List UInt8 := List.replicate count 0

/-- The number in a field of a record; bytes past the record's end count as absent. -/
def field (record : List UInt8) (offset width : Nat) : Nat :=
  toNat ((record.drop offset).take width)

@[simp]
theorem length_ofNat (width value : Nat) : (ofNat width value).length = width := by
  induction width generalizing value with
  | zero => rfl
  | succ width ih => simp [ofNat, ih]

@[simp]
theorem length_zeros (count : Nat) : (zeros count).length = count := List.length_replicate

theorem toNat_ofNat (width value : Nat) : toNat (ofNat width value) = value % limit width := by
  induction width generalizing value with
  | zero => simp [ofNat, toNat, limit, Nat.mod_one]
  | succ width ih =>
    have low : (UInt8.ofNat value).toNat = value % 256 := by simp
    rw [ofNat, toNat, ih, low, limit, Nat.mod_mul]

theorem toNat_lt (bytes : List UInt8) : toNat bytes < limit bytes.length := by
  induction bytes with
  | nil => simp [toNat, limit]
  | cons byte rest ih =>
    have bound : byte.toNat < 256 := byte.toNat_lt
    rw [toNat, List.length_cons, limit]
    omega

theorem ofNat_toNat (bytes : List UInt8) : ofNat bytes.length (toNat bytes) = bytes := by
  induction bytes with
  | nil => rfl
  | cons byte rest ih =>
    have bound : byte.toNat < 256 := byte.toNat_lt
    have low : UInt8.ofNat (byte.toNat + 256 * toNat rest) = byte := by
      apply UInt8.toNat_inj.1
      rw [UInt8.toNat_ofNat']
      omega
    have high : (byte.toNat + 256 * toNat rest) / 256 = toNat rest := by omega
    rw [List.length_cons, toNat, ofNat, low, high, ih]

end RateTree.Bytes
