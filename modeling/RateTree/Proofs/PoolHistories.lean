import Mathlib.Data.List.Pairwise
import RateTree.Proofs.Pools

/-!
# Histories of a pool

A pool that hands out, frees and writes blocks does what separate arrays of bytes would do. What it has
granted is its history, and the history alone tells which buffers are live, how large they are and
what each of their bytes is. That a history is `Sound` says how its pool shows this; each request
preserves it.
-/

namespace RateTree

/-- An array of bytes: how many they are, and the one at each position. -/
structure Buffer where
  size : Nat
  byte : Nat → UInt8

namespace Buffer

/-- A new buffer. -/
def zeros (size : Nat) : Buffer := ⟨size, fun _ => 0⟩

/-- The buffer with the bytes from an offset on replaced one by one. -/
def write (buffer : Buffer) (offset : Nat) (data : List UInt8) : Buffer where
  size := buffer.size
  byte position :=
    if offset ≤ position then (data[position - offset]?).getD (buffer.byte position)
    else buffer.byte position

/-- The bytes of a buffer, from its start on. -/
def toList (buffer : Buffer) : List UInt8 := (List.range buffer.size).map buffer.byte

@[simp]
theorem length_toList (buffer : Buffer) : buffer.toList.length = buffer.size := by
  simp [toList]

theorem getElem?_toList (buffer : Buffer) (position : Nat) :
    buffer.toList[position]? =
      if position < buffer.size then some (buffer.byte position) else none := by
  by_cases small : position < buffer.size <;> simp [toList, small]

theorem toList_zeros (size : Nat) : (zeros size).toList = Bytes.zeros size := by
  simp [toList, zeros, Bytes.zeros]

theorem toList_write {buffer : Buffer} {offset : Nat} {data : List UInt8}
    (fits : offset + data.length ≤ buffer.size) :
    (buffer.write offset data).toList = overwrite buffer.toList offset data := by
  apply List.ext_getElem?
  intro position
  rw [getElem?_overwrite (by simpa using fits)]
  simp only [getElem?_toList, write]
  by_cases inside : offset ≤ position ∧ position < offset + data.length
  · have covered : position - offset < data.length := by omega
    have small : position < buffer.size := by omega
    simp [inside, covered, small]
  · rw [if_neg inside]
    by_cases behind : offset ≤ position
    · have uncovered : data.length ≤ position - offset := by omega
      simp [behind, uncovered]
    · simp [behind]

end Buffer

namespace Pool

variable {pool : Pool} {iova other size offset : Nat} {data : List UInt8}

/-! ## What is asked and what is granted -/

/-- What can be asked of a pool. -/
inductive Request where
  | allocate (size : Nat)
  | free (iova : Nat)
  | fill (iova : Nat) (data : List UInt8)
  | write (iova offset : Nat) (data : List UInt8)
deriving DecidableEq

/-- What a pool has granted. -/
inductive Event where
  | allocated (block : Block)
  | freed (iova : Nat)
  | written (iova offset : Nat) (data : List UInt8)
deriving DecidableEq

/-- The buffer at an address: zeros when it was handed out, and written since, unless it was freed. -/
def buffer? : List Event → Nat → Option Buffer
  | [], _ => none
  | .allocated block :: earlier, iova =>
    if iova = block.iova then some (.zeros block.size) else buffer? earlier iova
  | .freed address :: earlier, iova => if iova = address then none else buffer? earlier iova
  | .written address offset data :: earlier, iova =>
    if iova = address then (buffer? earlier iova).map fun buffer => buffer.write offset data
    else buffer? earlier iova

/-- The addresses that were handed out. -/
def handedOut (events : List Event) : List Nat :=
  events.filterMap fun event =>
    match event with
    | .allocated block => some block.iova
    | _ => none

/-- A pool and what it has granted, newest first. -/
structure History where
  pool : Pool
  events : List Event

namespace History

/-- Writes bytes into a block; a write that is refused is not recorded. -/
def put (history : History) (iova offset : Nat) (data : List UInt8) : History :=
  match Pool.write iova offset data history.pool with
  | (.ok (), after) => ⟨after, .written iova offset data :: history.events⟩
  | (.error _, after) => ⟨after, history.events⟩

/-- The history after one more request; what is refused leaves no event. -/
def ask (history : History) : Request → History
  | .allocate size =>
    match Pool.allocate size history.pool with
    | (.ok block, after) => ⟨after, .allocated block :: history.events⟩
    | (.error _, after) => ⟨after, history.events⟩
  | .free iova =>
    match history.pool.block? iova with
    | some _ => ⟨history.pool.free iova, .freed iova :: history.events⟩
    | none => ⟨history.pool.free iova, history.events⟩
  | .fill iova data => history.put iova 0 data
  | .write iova offset data => history.put iova offset data

/-- The history of a pool that is empty at first. -/
def ofRequests (requests : List Request) : History :=
  requests.foldl ask ⟨.empty, []⟩

/-- The live buffer at an address. -/
def live (history : History) (iova : Nat) : Option Buffer := buffer? history.events iova

end History

/-! ## Requests one by one -/

/-- How handing out a buffer can end: zeros at an address that is new, or no buffer and none changed. -/
inductive Grants (history : History) (size : Nat) : Outcome Block × Pool → Prop where
  | empty (nothing : size = 0) :
      Grants history size (.error (.error (.invalidArgument .emptyBlock)), history.pool)
  | exhausted (cause : Fault)
      (full : 2 ^ 64 ≤ history.pool.nextAddress ∨
        2 ^ 64 ≤ history.pool.next + wholePages size) :
      Grants history size (.error (.fault cause), history.pool)
  | tooLarge {after : Pool} (large : sizeLimit ≤ size)
      (same : ∀ iova, after.read iova = history.pool.read iova) :
      Grants history size (.error (.fault .blockTooLarge), after)
  | granted {iova : Nat} {after : Pool} (positive : 0 < size) (small : size < sizeLimit)
      (new : iova ∉ handedOut history.events) (aligned : pageSize ∣ iova)
      (reads : ∀ other, after.read other =
        if other = iova then some (Bytes.zeros size) else history.pool.read other) :
      Grants history size (.ok ⟨iova, size⟩, after)

/-- How a write can end: it goes into a live buffer that it stays within, or changes nothing. -/
inductive Writes (history : History) (iova offset : Nat) (data : List UInt8) :
    Outcome Unit × Pool → Prop where
  | accepted {buffer : Buffer} {after : Pool} (live : history.live iova = some buffer)
      (fits : offset + data.length ≤ buffer.size)
      (reads : ∀ other, after.read other =
        if other = iova then some (buffer.write offset data).toList
        else history.pool.read other) :
      Writes history iova offset data (.ok (), after)
  | unknown (dead : history.live iova = none) :
      Writes history iova offset data (.error (.error (.notFound (.block iova))), history.pool)
  | outside {buffer : Buffer} (live : history.live iova = some buffer)
      (past : buffer.size < offset + data.length) :
      Writes history iova offset data
        (.error (.error (.invalidArgument (.writePastEnd iova))), history.pool)

theorem read_free : (pool.free iova).read other = if other = iova then none else pool.read other := by
  simp only [read, block?, free]
  split
  · next same =>
    subst same
    simp
  · next different =>
    rw [List.find?_filter]
    congr 2
    funext block
    by_cases here : block.iova = other
    · simp [here, different]
    · simp [here]

theorem read_reserve : (pool.reserve size).read iova = pool.read iova := rfl

namespace History

variable {history : History} {buffer neighbour : Buffer}

/-- What a history says about its pool. -/
structure Sound (history : History) : Prop where
  shown : ∀ iova, history.pool.read iova = (history.live iova).map Buffer.toList
  whole : ∀ block ∈ history.pool.blocks, block.contents.length = block.size
  once : (handedOut history.events).Nodup
  below : ∀ iova ∈ handedOut history.events, iova < history.pool.nextAddress
  was_live : ∀ iova, .freed iova ∈ history.events → iova ∈ handedOut history.events
  live_iff : ∀ iova, (history.live iova).isSome = true ↔
    iova ∈ handedOut history.events ∧ .freed iova ∉ history.events

theorem Sound.empty : Sound ⟨.empty, []⟩ where
  shown _ := rfl
  whole := by simp [Pool.empty]
  once := .nil
  below := by simp [handedOut]
  was_live := by simp
  live_iff := by simp [live, buffer?, handedOut]

/-- Every block in use is a live buffer. -/
theorem Sound.exists_live (sound : history.Sound) {block : PoolBlock}
    (found : history.pool.block? iova = some block) :
    ∃ buffer, history.live iova = some buffer ∧ buffer.size = block.size := by
  have shown := sound.shown iova
  rw [read, found] at shown
  rcases Option.map_eq_some_iff.1 shown.symm with ⟨buffer, held, toList_eq⟩
  refine ⟨buffer, held, ?_⟩
  rw [← sound.whole block (List.mem_of_find?_eq_some found), ← toList_eq, Buffer.length_toList]

/-- Every live buffer is a block in use. -/
theorem Sound.exists_block (sound : history.Sound) (held : history.live iova = some buffer) :
    ∃ block ∈ history.pool.blocks, block.iova = iova ∧ block.size = buffer.size := by
  have shown := sound.shown iova
  rw [held] at shown
  rcases Option.map_eq_some_iff.1 shown with ⟨block, found, -⟩
  rcases sound.exists_live found with ⟨same, held_same, size_eq⟩
  rw [held, Option.some.injEq] at held_same
  subst held_same
  exact ⟨block, List.mem_of_find?_eq_some found, iova_of_block? found, size_eq.symm⟩

theorem Sound.grants (sound : history.Sound) (size : Nat) :
    Grants history size (allocate size history.pool) := by
  have ended := allocate_allots history.pool size
  generalize allocate size history.pool = result at ended ⊢
  cases ended with
  | empty nothing => exact .empty nothing
  | exhausted cause full => exact .exhausted cause full
  | tooLarge large => exact .tooLarge large fun _ => read_reserve
  | block positive small room =>
      refine .granted positive small ?_ ?_ ?_
      · intro old
        exact Nat.lt_irrefl _ (sound.below _ old)
      · exact Nat.dvd_add ⟨0x100000, by decide⟩ history.pool.aligned
      · intro other
        split
        · next same => rw [same, read_push]
        · next different => exact read_push_of_ne different

theorem Sound.writes (sound : history.Sound) (iova offset : Nat) (data : List UInt8) :
    Writes history iova offset data (Pool.write iova offset data history.pool) := by
  have ended := write_puts history.pool iova offset data
  generalize Pool.write iova offset data history.pool = result at ended ⊢
  cases ended with
  | unknown missing =>
      have shown := sound.shown iova
      rw [read, missing] at shown
      exact .unknown (Option.map_eq_none_iff.1 shown.symm)
  | outside found past =>
      rcases sound.exists_live found with ⟨buffer, held, size_eq⟩
      exact .outside held (size_eq ▸ past)
  | stored found fits =>
      rcases sound.exists_live found with ⟨buffer, held, size_eq⟩
      rw [← size_eq] at fits
      refine .accepted held fits ?_
      intro other
      split
      · next same =>
        rw [same, Buffer.toList_write fits]
        apply read_overwriteBlock
        rw [sound.shown, held, Option.map_some]
      · next different => exact read_overwriteBlock_of_ne different

/-! ## Any number of requests -/

theorem Sound.push (sound : history.Sound) (positive : 0 < size) :
    Sound ⟨history.pool.push size positive,
      .allocated ⟨history.pool.nextAddress, size⟩ :: history.events⟩ where
  shown iova := by
    simp only [live, buffer?]
    split
    · next same =>
      rw [same, read_push]
      simp [Buffer.toList_zeros]
    · next different => exact (read_push_of_ne different).trans (sound.shown iova)
  whole block mem := by
    rcases List.mem_cons.1 mem with rfl | older
    · simp [PoolBlock.contents]
    · exact sound.whole block older
  once := by
    refine List.nodup_cons.2 ⟨?_, sound.once⟩
    intro old
    exact Nat.lt_irrefl _ (sound.below _ old)
  below iova mem := by
    have further := nextAddress_lt_push history.pool positive
    rcases List.mem_cons.1 mem with rfl | old
    · exact further
    · exact Nat.lt_trans (sound.below iova old) further
  was_live iova freed := by
    refine List.mem_cons_of_mem _ (sound.was_live iova ?_)
    simpa using freed
  live_iff iova := by
    by_cases same : iova = history.pool.nextAddress
    · have unfreed : .freed iova ∉ history.events := by
        intro freed
        have old := sound.below iova (sound.was_live iova freed)
        omega
      simpa [live, buffer?, handedOut, same] using same ▸ unfreed
    · simpa [live, buffer?, handedOut, same] using sound.live_iff iova

theorem Sound.allocate (sound : history.Sound) (size : Nat) :
    (history.ask (.allocate size)).Sound := by
  have ended := allocate_allots history.pool size
  simp only [ask]
  generalize Pool.allocate size history.pool = result at ended ⊢
  cases ended with
  | empty => exact sound
  | exhausted => exact sound
  | tooLarge =>
      refine { sound with below := ?_ }
      intro iova old
      exact Nat.lt_of_lt_of_le (sound.below iova old) (nextAddress_le_reserve history.pool size)
  | block positive => exact sound.push positive

theorem Sound.free (sound : history.Sound) (iova : Nat) : (history.ask (.free iova)).Sound := by
  have whole : ∀ block ∈ (history.pool.free iova).blocks, block.contents.length = block.size :=
    fun block mem => sound.whole block (List.mem_filter.1 mem).1
  simp only [ask]
  split
  · next block found =>
    rcases sound.exists_live found with ⟨buffer, held, -⟩
    refine { sound with whole, shown := ?_, was_live := ?_, live_iff := ?_ }
    · intro other
      simp only [read_free, live, buffer?]
      split
      · rfl
      · exact sound.shown other
    · intro other freed
      rcases List.mem_cons.1 freed with same | earlier
      · cases same
        exact ((sound.live_iff iova).1 (by simp [held])).1
      · exact sound.was_live other earlier
    · intro other
      by_cases same : other = iova
      · simp [live, buffer?, same]
      · simpa [live, buffer?, handedOut, same] using sound.live_iff other
  · next missing =>
    refine { sound with whole, shown := ?_ }
    intro other
    refine Eq.trans ?_ (sound.shown other)
    rw [read_free]
    split
    · next same => simp [same, read, missing]
    · rfl

theorem Sound.overwrite (sound : history.Sound) {block : PoolBlock}
    (found : history.pool.block? iova = some block) (fits : offset + data.length ≤ block.size) :
    Sound ⟨history.pool.overwriteBlock iova offset data,
      .written iova offset data :: history.events⟩ := by
  rcases sound.exists_live found with ⟨buffer, held, size_eq⟩
  refine { sound with shown := ?_, whole := ?_, below := ?_, was_live := ?_, live_iff := ?_ }
  · intro other
    simp only [live, buffer?]
    split
    · next same =>
      have shown := sound.shown iova
      rw [held, Option.map_some] at shown
      simp only [live] at held
      rw [same, read_overwriteBlock shown, held, Option.map_some, Option.map_some,
        Buffer.toList_write (size_eq ▸ fits)]
    · next different => exact (read_overwriteBlock_of_ne different).trans (sound.shown other)
  · intro other mem
    rcases List.mem_map.1 mem with ⟨old, old_mem, rfl⟩
    have old_whole := sound.whole old old_mem
    split
    · next here =>
      have same := block?_of_mem old_mem
      rw [here, found, Option.some.injEq] at same
      subst same
      rw [PoolBlock.contents_write, length_overwrite (old_whole ▸ fits)]
      exact old_whole
    · exact old_whole
  · exact sound.below
  · intro other freed
    exact sound.was_live other (by simpa using freed)
  · intro other
    by_cases same : other = iova
    · simpa [live, buffer?, handedOut, same] using sound.live_iff iova
    · simpa [live, buffer?, handedOut, same] using sound.live_iff other

theorem Sound.put (sound : history.Sound) (iova offset : Nat) (data : List UInt8) :
    (history.put iova offset data).Sound := by
  have ended := write_puts history.pool iova offset data
  simp only [History.put]
  generalize Pool.write iova offset data history.pool = result at ended ⊢
  cases ended with
  | unknown => exact sound
  | outside => exact sound
  | stored found fits => exact sound.overwrite found fits

theorem Sound.ask (sound : history.Sound) (request : Request) : (history.ask request).Sound := by
  cases request with
  | allocate size => exact sound.allocate size
  | free iova => exact sound.free iova
  | fill iova data => exact sound.put iova 0 data
  | write iova offset data => exact sound.put iova offset data

theorem sound_ofRequests (requests : List Request) : (ofRequests requests).Sound := by
  apply List.foldlRecOn requests History.ask .empty
  intro history sound request _
  exact sound.ask request

/-- What makes the buffers of a pool separate arrays of bytes. -/
structure SeparateArrays (history : History) : Prop where
  /-- Every address reads as its live buffer, or as nothing. -/
  contents : ∀ iova, history.pool.read iova = (history.live iova).map Buffer.toList
  /-- The live buffers are those that were handed out and not freed. -/
  lives : ∀ iova, (history.live iova).isSome = true ↔
    iova ∈ handedOut history.events ∧ .freed iova ∉ history.events
  once : (handedOut history.events).Nodup
  placed : ∀ iova buffer, history.live iova = some buffer → 0 < buffer.size ∧ pageSize ∣ iova
  apart : ∀ iova other buffer neighbour, history.live iova = some buffer →
    history.live other = some neighbour → iova ≠ other →
      iova + buffer.size ≤ other ∨ other + neighbour.size ≤ iova
  grants : ∀ size, Grants history size (allocate size history.pool)
  writes : ∀ iova offset data,
    Writes history iova offset data (Pool.write iova offset data history.pool)
  frees : ∀ iova other, (history.pool.free iova).read other =
    if other = iova then none else history.pool.read other

theorem Sound.placed (sound : history.Sound) (held : history.live iova = some buffer) :
    0 < buffer.size ∧ pageSize ∣ iova := by
  rcases sound.exists_block held with ⟨block, mem, rfl, size_eq⟩
  rcases history.pool.placed block mem with ⟨positive, aligned, -⟩
  exact ⟨size_eq ▸ positive, aligned⟩

theorem Sound.apart (sound : history.Sound) (held : history.live iova = some buffer)
    (held_other : history.live other = some neighbour) (different : iova ≠ other) :
    iova + buffer.size ≤ other ∨ other + neighbour.size ≤ iova := by
  rcases sound.exists_block held with ⟨block, mem, rfl, size_eq⟩
  rcases sound.exists_block held_other with ⟨next, next_mem, rfl, next_size_eq⟩
  -- One of the two is the newer block, and the newer one lies above the older.
  have either : history.pool.blocks.Pairwise fun first second =>
      first.iova + first.size ≤ second.iova ∨ second.iova + second.size ≤ first.iova :=
    history.pool.apart.imp fun above => .inr above
  have symmetric : Std.Symm fun first second : PoolBlock =>
      first.iova + first.size ≤ second.iova ∨ second.iova + second.size ≤ first.iova :=
    ⟨fun _ _ => Or.symm⟩
  rw [← size_eq, ← next_size_eq]
  apply either.forall mem next_mem
  rintro rfl
  exact different rfl

/-- A pool behaves as separate arrays of bytes, whatever is asked of it. -/
theorem pools_are_separate_arrays (requests : List Request) :
    (ofRequests requests).SeparateArrays := by
  have sound := sound_ofRequests requests
  exact
    { contents := sound.shown
      lives := sound.live_iff
      once := sound.once
      placed := fun _ _ held => sound.placed held
      apart := fun _ _ _ _ held held_other different => sound.apart held held_other different
      grants := sound.grants
      writes := sound.writes
      frees := fun _ _ => read_free }

end History

end Pool

end RateTree
