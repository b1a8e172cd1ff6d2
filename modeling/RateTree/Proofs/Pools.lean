import Mathlib.Algebra.Group.Nat.Defs
import Mathlib.Data.List.Nodup
import RateTree.Memory.Pool

/-!
# Pools as maps

What the operations of a pool do to its view `read` and to the addresses in use. A new block is put at an
address above all that were ever handed out, a write changes one block only, and freeing a block takes its
address away and no other.
-/

namespace RateTree

theorem pageSpan_eq_ok {size span : Nat} :
    pageSpan size = .ok span ↔ wholePages size < Word.size 64 ∧ wholePages size = span :=
  Word.fits_eq_ok

theorem getElem?_overwrite {bytes data : List UInt8} {offset : Nat}
    (fits : offset + data.length ≤ bytes.length) (position : Nat) :
    (overwrite bytes offset data)[position]? =
      if offset ≤ position ∧ position < offset + data.length then data[position - offset]?
      else bytes[position]? := by
  have start : (bytes.take offset).length = offset := List.length_take_of_le (by omega)
  rw [overwrite, List.append_assoc]
  by_cases before : position < offset
  · rw [List.getElem?_append_left (by omega), List.getElem?_take_of_lt before, if_neg (by omega)]
  · rw [List.getElem?_append_right (by omega), start]
    by_cases inside : position < offset + data.length
    · rw [List.getElem?_append_left (by omega), if_pos (by omega)]
    · rw [List.getElem?_append_right (by omega), if_neg (by omega), List.getElem?_drop]
      congr 1
      omega

theorem length_overwrite {bytes data : List UInt8} {offset : Nat}
    (fits : offset + data.length ≤ bytes.length) :
    (overwrite bytes offset data).length = bytes.length := by
  simp only [overwrite, List.length_append, List.length_take, List.length_drop]
  omega

namespace Pool

variable {pool : Pool}

/-- The addresses of the blocks in use. -/
def addresses (pool : Pool) : List Nat := pool.blocks.map PoolBlock.iova

theorem outstanding_eq_length (pool : Pool) : pool.outstanding = pool.addresses.length := by
  simp [outstanding, addresses]

theorem addresses_overwriteBlock (iova offset : Nat) (data : List UInt8) :
    (pool.overwriteBlock iova offset data).addresses = pool.addresses := by
  simp only [addresses, overwriteBlock, List.map_map]
  apply List.map_congr_left
  intro block _
  simp only [Function.comp_apply]
  split <;> rfl

theorem addresses_free (iova : Nat) :
    (pool.free iova).addresses = pool.addresses.filter fun address => address != iova := by
  simp only [addresses, free, List.filter_map]
  rfl

/-- Every address in use lies below the next one. -/
theorem lt_nextAddress {address : Nat} (mem : address ∈ pool.addresses) :
    address < pool.nextAddress := by
  rcases List.mem_map.1 mem with ⟨block, block_mem, rfl⟩
  have placed := pool.placed block block_mem
  simp only [nextAddress]
  omega

theorem nodup_addresses (pool : Pool) : pool.addresses.Nodup := by
  apply List.pairwise_map.2
  apply pool.apart.imp_of_mem
  intro newer older newer_mem older_mem below same
  have placed := pool.placed older older_mem
  omega

theorem block?_of_mem {block : PoolBlock} (mem : block ∈ pool.blocks) :
    pool.block? block.iova = some block := by
  cases found : pool.block? block.iova with
  | none => simpa using List.find?_eq_none.1 found block mem
  | some other =>
      have same : other.iova = block.iova := by simpa using List.find?_some found
      have other_mem := List.mem_of_find?_eq_some found
      rw [List.inj_on_of_nodup_map pool.nodup_addresses other_mem mem same]

theorem addresses_write (iova offset : Nat) (data : List UInt8) :
    (write iova offset data pool).2.addresses = pool.addresses ∧
      (write iova offset data pool).2.next = pool.next := by
  simp only [write]
  split
  · exact ⟨rfl, rfl⟩
  · split
    · exact ⟨rfl, rfl⟩
    · exact ⟨addresses_overwriteBlock _ _ _, rfl⟩

/-- The addresses of a block last if it starts below the limit of a word, and so does the next one once
the first address is taken off. -/
theorem checkAddresses_eq_ok {size : Nat} {passed : Unit} :
    pool.checkAddresses size = .ok passed ↔
      pool.nextAddress < 2 ^ 64 ∧ pool.next + wholePages size < 2 ^ 64 := by
  simp only [checkAddresses, Word.add, Outcome.bind_eq_ok, Word.fits_eq_ok, pageSpan_eq_ok]
  constructor
  · rintro ⟨_, ⟨address, -⟩, _, ⟨-, rfl⟩, _, ⟨further, -⟩, -⟩
    exact ⟨address, further⟩
  · rintro ⟨address, further⟩
    have spanned := Nat.lt_of_le_of_lt (Nat.le_add_left (wholePages size) pool.next) further
    exact ⟨_, ⟨address, rfl⟩, _, ⟨spanned, rfl⟩, _, ⟨further, rfl⟩, rfl⟩

/-- How handing out a block can end: with a new one at the next address, or with none for a reason. -/
inductive Allots (pool : Pool) (size : Nat) : Outcome Block × Pool → Prop where
  | empty (nothing : size = 0) :
      Allots pool size (.error (.error (.invalidArgument .emptyBlock)), pool)
  | exhausted (cause : Fault)
      (full : 2 ^ 64 ≤ pool.nextAddress ∨ 2 ^ 64 ≤ pool.next + wholePages size) :
      Allots pool size (.error (.fault cause), pool)
  | tooLarge (large : sizeLimit ≤ size) :
      Allots pool size (.error (.fault .blockTooLarge), pool.reserve size)
  | block (positive : 0 < size) (small : size < sizeLimit) (room : pool.nextAddress < 2 ^ 64) :
      Allots pool size (.ok ⟨pool.nextAddress, size⟩, pool.push size positive)

theorem allocate_allots (pool : Pool) (size : Nat) : pool.Allots size (allocate size pool) := by
  simp only [allocate]
  split
  · next nothing => exact .empty nothing
  · split
    · next cause failed =>
      refine .exhausted cause ?_
      have failing : ¬pool.checkAddresses size = .ok () := by simp [failed]
      rw [checkAddresses_eq_ok] at failing
      omega
    · next checked =>
      split
      · next large => exact .tooLarge large
      · next small => exact .block _ (Nat.lt_of_not_le small) (checkAddresses_eq_ok.1 checked).1

/-- How handing out a block of at most a page can end. -/
inductive AllocatesSmall (pool : Pool) (size : Nat) : Outcome Block × Pool → Prop where
  | empty (nothing : size = 0) :
      AllocatesSmall pool size (.error (.error (.invalidArgument .emptyBlock)), pool)
  | exhausted (cause : Fault) (full : 2 ^ 64 ≤ pool.nextAddress) :
      AllocatesSmall pool size (.error (.fault cause), pool)
  | block (positive : 0 < size) (room : pool.nextAddress < 2 ^ 64) :
      AllocatesSmall pool size (.ok ⟨pool.nextAddress, size⟩, pool.push size positive)

theorem allocate_small {size : Nat} (small : size ≤ pageSize) :
    AllocatesSmall pool size (allocate size pool) := by
  have span : wholePages size ≤ pageSize := by
    simp only [wholePages, pageSize] at small ⊢
    omega
  have ended := allocate_allots pool size
  generalize allocate size pool = result at ended ⊢
  cases ended with
  | empty nothing => exact .empty nothing
  | exhausted cause full =>
      refine .exhausted cause ?_
      simp only [nextAddress, firstAddress, pageSize] at full span ⊢
      omega
  | tooLarge large =>
      simp only [sizeLimit, pageSize] at large small
      omega
  | block positive _ room => exact .block positive room

theorem nextAddress_le_reserve (pool : Pool) (size : Nat) :
    pool.nextAddress ≤ (pool.reserve size).nextAddress := by
  simp only [nextAddress, reserve]
  omega

theorem nextAddress_lt_push (pool : Pool) {size : Nat} (positive : 0 < size) :
    pool.nextAddress < (pool.push size positive).nextAddress := by
  have fits := le_wholePages size
  simp only [nextAddress, push]
  omega

section Contents

variable {size iova other offset : Nat} {positive : 0 < size} {bytes data : List UInt8}

theorem block?_push :
    (pool.push size positive).block? pool.nextAddress = some ⟨pool.nextAddress, size, []⟩ := by
  simp [block?, push]

theorem block?_push_of_ne (elsewhere : other ≠ pool.nextAddress) :
    (pool.push size positive).block? other = pool.block? other := by
  have older : (pool.nextAddress == other) = false := by simpa using elsewhere.symm
  simp [block?, push, older]

/-- A write changes the block that it goes into and no other. -/
theorem block?_overwriteBlock : (pool.overwriteBlock iova offset data).block? other =
    (pool.block? other).map fun block =>
      if block.iova = iova then block.write offset data else block := by
  simp only [block?, overwriteBlock, List.find?_map]
  congr 2
  funext block
  simp only [Function.comp_apply]
  split <;> rfl

theorem iova_of_block? {block : PoolBlock} (found : pool.block? iova = some block) :
    block.iova = iova := by
  simpa using List.find?_some found

theorem write_of_block? {block : PoolBlock} (found : pool.block? iova = some block)
    (fits : offset + data.length ≤ block.size) :
    write iova offset data pool = (.ok (), pool.overwriteBlock iova offset data) := by
  simp only [write, found, if_neg (Nat.not_lt.2 fits)]

/-- How writing into a block can end: the write is stored, or refused without a trace. -/
inductive Puts (pool : Pool) (iova offset : Nat) (data : List UInt8) : Outcome Unit × Pool → Prop where
  | unknown (missing : pool.block? iova = none) :
      Puts pool iova offset data (.error (.error (.notFound (.block iova))), pool)
  | outside {block : PoolBlock} (found : pool.block? iova = some block)
      (past : block.size < offset + data.length) :
      Puts pool iova offset data (.error (.error (.invalidArgument (.writePastEnd iova))), pool)
  | stored {block : PoolBlock} (found : pool.block? iova = some block)
      (fits : offset + data.length ≤ block.size) :
      Puts pool iova offset data (.ok (), pool.overwriteBlock iova offset data)

theorem write_puts (pool : Pool) (iova offset : Nat) (data : List UInt8) :
    pool.Puts iova offset data (write iova offset data pool) := by
  simp only [write]
  split
  · next missing => exact .unknown missing
  · next block found =>
    split
    · next past => exact .outside found past
    · next fits => exact .stored found (Nat.le_of_not_lt fits)

theorem read_push : (pool.push size positive).read pool.nextAddress = some (Bytes.zeros size) := by
  rw [read, block?_push]
  rfl

theorem read_push_of_ne (elsewhere : other ≠ pool.nextAddress) :
    (pool.push size positive).read other = pool.read other := by
  rw [read, block?_push_of_ne elsewhere, read]

theorem read_overwriteBlock (held : pool.read iova = some bytes) :
    (pool.overwriteBlock iova offset data).read iova = some (overwrite bytes offset data) := by
  rcases Option.map_eq_some_iff.1 held with ⟨block, found, rfl⟩
  simp only [read, block?_overwriteBlock, found, Option.map_some, iova_of_block? found, if_true,
    PoolBlock.contents_write]

theorem read_overwriteBlock_of_ne (elsewhere : other ≠ iova) :
    (pool.overwriteBlock iova offset data).read other = pool.read other := by
  rw [read, block?_overwriteBlock, read]
  cases found : pool.block? other with
  | none => rfl
  | some block =>
      have apart : block.iova ≠ iova := by rwa [iova_of_block? found]
      simp only [Option.map_some, if_neg apart]

/-- A block of at most a page takes up a page of addresses. -/
theorem nextAddress_push (pool : Pool) (positive : 0 < size) (small : size ≤ pageSize) :
    (pool.push size positive).nextAddress = pool.nextAddress + pageSize := by
  have page : wholePages size = pageSize := by
    simp only [wholePages, pageSize] at small ⊢
    omega
  simp only [nextAddress, push, page]
  omega

theorem write_push (fits : bytes.length ≤ size) :
    write pool.nextAddress 0 bytes (pool.push size positive) =
      (.ok (), (pool.push size positive).overwriteBlock pool.nextAddress 0 bytes) :=
  write_of_block? block?_push (by simpa using fits)

/-- A new block that was written from end to end holds what was written. -/
theorem read_push_overwriteBlock (exact : bytes.length = size) :
    ((pool.push size positive).overwriteBlock pool.nextAddress 0 bytes).read pool.nextAddress =
      some bytes := by
  have written : overwrite (Bytes.zeros size) 0 bytes = bytes := by
    simp [overwrite, exact]
  rw [read_overwriteBlock read_push, written]

end Contents

end Pool

end RateTree
