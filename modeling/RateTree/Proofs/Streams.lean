import RateTree.Proofs.Wire

/-!
# Records as streams

A record can be read from its start, each field taken off what is left, and written from its start, with what
has been written padded to the length of a record at the end. Either way may get stuck: the bytes may run
out, and what was written may be too long already. For the records of the wire neither happens, and the
outcome is that of reading and writing whole fields by their offsets.
-/

namespace RateTree

namespace Bytes

variable {record : List UInt8} {offset width : Nat}

/-- The bytes of a field of a record. -/
def window (record : List UInt8) (offset width : Nat) : List UInt8 :=
  (record.drop offset).take width

theorem length_window (inside : offset + width ≤ record.length) :
    (window record offset width).length = width := by
  rw [window, List.length_take, List.length_drop]
  omega

/-- A field that is inside the start of a record is a field of that start. -/
theorem field_take {length : Nat} (inside : offset + width ≤ length) :
    field (record.take length) offset width = field record offset width := by
  rw [field, field, List.drop_take, List.take_take, Nat.min_eq_left (by omega)]

theorem ofNat_field (inside : offset + width ≤ record.length) :
    ofNat width (field record offset width) = window record offset width := by
  have bytes := ofNat_toNat (window record offset width)
  rwa [length_window inside] at bytes

theorem field_lt (inside : offset + width ≤ record.length) :
    field record offset width < limit width := by
  have bounded := toNat_lt (window record offset width)
  rwa [length_window inside] at bounded

end Bytes

/-! ## Reading -/

/-- Takes a result off the front of some bytes; there is none if the bytes run out. -/
abbrev Reader (α : Type) := StateT (List UInt8) Option α

namespace Reader

/-- The number in the next bytes, the least significant first. -/
def number (width : Nat) : Reader Nat := fun bytes =>
  if width ≤ bytes.length then some (Bytes.toNat (bytes.take width), bytes.drop width) else none

/-- Passes over the next bytes. -/
def skip (width : Nat) : Reader Unit := fun bytes =>
  if width ≤ bytes.length then some ((), bytes.drop width) else none

/-- The numbers of one width in the next bytes. -/
def numbers (width : Nat) : Nat → Reader (List Nat)
  | 0 => pure []
  | count + 1 => do
    let value ← number width
    let others ← numbers width count
    return value :: others

variable {record : List UInt8} {length : Nat}

theorem run_number (size : record.length = length) (offset width : Nat)
    (inside : offset + width ≤ length) :
    (number width).run (record.drop offset) =
      some (Bytes.field record offset width, record.drop (offset + width)) := by
  have enough : width ≤ (record.drop offset).length := by
    rw [List.length_drop]
    omega
  rw [StateT.run, number, if_pos enough, List.drop_drop, Bytes.field]

theorem run_skip (size : record.length = length) (offset width : Nat)
    (inside : offset + width ≤ length) :
    (skip width).run (record.drop offset) = some ((), record.drop (offset + width)) := by
  have enough : width ≤ (record.drop offset).length := by
    rw [List.length_drop]
    omega
  rw [StateT.run, skip, if_pos enough, List.drop_drop]

theorem run_numbers (size : record.length = length) (offset width count : Nat)
    (inside : offset + width * count ≤ length) :
    (numbers width count).run (record.drop offset) =
      some ((List.range count).map fun position =>
        Bytes.field record (offset + width * position) width,
        record.drop (offset + width * count)) := by
  induction count generalizing offset with
  | zero => rfl
  | succ count ih =>
      -- The numbers after the first one are read from a later offset, and counted one lower.
      have further : offset + width + width * count = offset + width * (count + 1) := by
        rw [Nat.mul_succ]
        omega
      have moved : (List.range count).map (fun position =>
            Bytes.field record (offset + width + width * position) width) =
          (List.range count).map ((fun position =>
            Bytes.field record (offset + width * position) width) ∘ Nat.succ) := by
        refine List.map_congr_left fun position _ => ?_
        rw [Function.comp_apply, Nat.succ_eq_add_one, Nat.mul_succ, Nat.add_assoc,
          Nat.add_comm width]
      have first := run_number size offset width (by omega)
      have others := ih (offset + width) (further ▸ inside)
      rw [List.range_succ_eq_map, List.map_cons, List.map_map, ← moved]
      simp only [numbers, StateT.run_bind, first, others, further, StateT.run_pure,
        Option.bind_eq_bind, Option.bind_some, Option.pure_def, Nat.mul_zero, Nat.add_zero]

/-- Reads the start of a message that is long enough, and refuses others. -/
def whole {α : Type} (reader : Reader (Except Error α)) (length : Nat) (short : Error)
    (bytes : List UInt8) : Option (Except Error α) :=
  if bytes.length < length then some (.error short)
  else (reader.run (bytes.take length)).map Prod.fst

/-- Reading comes to what decoding comes to, if it does so on records of the very length and decoding goes by
the start alone. -/
theorem whole_eq {α : Type} {reader : Reader (Except Error α)} {short : Error}
    {decode : List UInt8 → Except Error α} {bytes : List UInt8}
    (runs : ∀ record : List UInt8, record.length = length →
      (reader.run record).map Prod.fst = some (decode record))
    (refused : bytes.length < length → decode bytes = .error short)
    (decode_take : length ≤ bytes.length → decode (bytes.take length) = decode bytes) :
    reader.whole length short bytes = some (decode bytes) := by
  rw [whole]
  split
  · next early => rw [refused early]
  · next long =>
    rw [Nat.not_lt] at long
    rw [runs _ (List.length_take_of_le long), decode_take long]

end Reader

/-- Reads a request field by field. -/
def AdminRequest.reader : Reader (Except Error AdminRequest) := do
  let blockSize ← Reader.number 2
  Reader.skip 1
  let id ← Reader.number 1
  match AdminCommand.ofId? id.toUInt8 with
  | none => return .error (.invalidArgument (.unknownCommand id.toUInt8))
  | some command =>
    Reader.skip 4
    let block ← Reader.number 8
    let nodeTag ← Reader.number 1
    let service ← Reader.number 1
    let ringCount ← Reader.number 1
    Reader.skip 1
    let nodeIndex ← Reader.number 4
    return .ok
      { command
        blockSize := blockSize.toUInt16
        block := block.toUInt64
        nodeTag := nodeTag.toUInt8
        service := service.toUInt8
        ringCount := ringCount.toUInt8
        nodeIndex := nodeIndex.toUInt32 }

/-- Reads the fields of a response in order. -/
def AdminResponse.reader : Reader (Except Error AdminResponse) := do
  Reader.skip 1
  let commandId ← Reader.number 1
  let status ← Reader.number 1
  return .ok ⟨commandId.toUInt8, status.toUInt8⟩

/-- Reads the fields of a parameter block with a number of rings in order. -/
def SlaParameters.reader (ringCount : Nat) : Reader (Except Error SlaParameters) := do
  let pcieInCommitted ← Reader.number 4
  let pcieInPeak ← Reader.number 4
  let pcieOutCommitted ← Reader.number 4
  let pcieOutPeak ← Reader.number 4
  let sliceCommitted ← Reader.number 4
  let slicePeak ← Reader.number 4
  let engineCommitted ← Reader.number 4
  let enginePeak ← Reader.number 4
  let rings ← Reader.numbers 2 ringCount
  return .ok
    { tokens :=
        ⟨⟨pcieInCommitted.toUInt32, pcieOutCommitted.toUInt32, sliceCommitted.toUInt32,
            engineCommitted.toUInt32⟩,
          ⟨pcieInPeak.toUInt32, pcieOutPeak.toUInt32, slicePeak.toUInt32, enginePeak.toUInt32⟩⟩
      rings := rings.map Nat.toUInt16 }

section Reading

open Reader (run_number run_skip run_numbers)

variable {record : List UInt8}

theorem AdminRequest.run_reader (size : record.length = 32) :
    (AdminRequest.reader.run record).map Prod.fst = some (decode record) := by
  have first : (Reader.number 2).run record = some (Bytes.field record 0 2, record.drop 2) :=
    run_number size 0 2 (by decide)
  have long : ¬record.length < messageLength := by simp [size, messageLength]
  simp only [reader, decode, if_neg long, StateT.run_bind, Option.bind_eq_bind, Option.bind_some,
    first, run_skip size 2 1 (by decide), run_number size 3 1 (by decide), Nat.reduceAdd]
  cases AdminCommand.ofId? (Bytes.field record 3 1).toUInt8 with
  | none => rfl
  | some command =>
      simp only [StateT.run_bind, Option.bind_eq_bind, Option.bind_some,
        run_skip size 4 4 (by decide), run_number size 8 8 (by decide),
        run_number size 16 1 (by decide), run_number size 17 1 (by decide),
        run_number size 18 1 (by decide), run_skip size 19 1 (by decide),
        run_number size 20 4 (by decide), Nat.reduceAdd, StateT.run_pure, Option.pure_def,
        Option.map_some]

theorem AdminResponse.run_reader (size : record.length = 32) :
    (AdminResponse.reader.run record).map Prod.fst = some (decode record) := by
  have first : (Reader.skip 1).run record = some ((), record.drop 1) :=
    run_skip size 0 1 (by decide)
  have long : ¬record.length < messageLength := by simp [size, messageLength]
  simp only [reader, decode, if_neg long, StateT.run_bind, Option.bind_eq_bind, Option.bind_some,
    first, run_number size 1 1 (by decide), run_number size 2 1 (by decide), Nat.reduceAdd,
    StateT.run_pure, Option.pure_def, Option.map_some]

theorem SlaParameters.run_reader (size : record.length = 64) {ringCount : Nat}
    (few : ringCount ≤ maxRings) :
    ((SlaParameters.reader ringCount).run record).map Prod.fst =
      some (decode record ringCount) := by
  have first : (Reader.number 4).run record = some (Bytes.field record 0 4, record.drop 4) :=
    run_number size 0 4 (by decide)
  have last := run_numbers size 32 2 ringCount (by simp only [maxRings] at few; omega)
  have whole : ¬(record.length < parameterBlockSize ∨ maxRings < ringCount) := by
    simp only [size, parameterBlockSize]
    omega
  simp only [reader, decode, if_neg whole, StateT.run_bind, Option.bind_eq_bind, Option.bind_some,
    first, run_number size 4 4 (by decide), run_number size 8 4 (by decide),
    run_number size 12 4 (by decide), run_number size 16 4 (by decide),
    run_number size 20 4 (by decide), run_number size 24 4 (by decide),
    run_number size 28 4 (by decide), last, Nat.reduceAdd, StateT.run_pure, Option.pure_def,
    Option.map_some, List.map_map]
  rfl

end Reading

section Decoding

variable (bytes : List UInt8)

/-- Reads a request off the start of some bytes. -/
def AdminRequest.read : Option (Except Error AdminRequest) :=
  reader.whole messageLength (.invalidArgument (.shortRequest bytes.length)) bytes

/-- Reads a response off a record that is long enough. -/
def AdminResponse.read : Option (Except Error AdminResponse) :=
  reader.whole messageLength (.invalidArgument (.shortResponse bytes.length)) bytes

/-- Reads a parameter block off a record of the very size, for a number of rings that it has room for. -/
def SlaParameters.read (ringCount : Nat) : Option (Except Error SlaParameters) :=
  if maxRings < ringCount then some (.error (.invalidArgument .malformedParameterBlock))
  else (reader ringCount).whole parameterBlockSize (.invalidArgument .malformedParameterBlock) bytes

variable {bytes}

theorem AdminRequest.decode_take (long : messageLength ≤ bytes.length) :
    decode (bytes.take messageLength) = decode bytes := by
  have size : ¬(bytes.take messageLength).length < messageLength := by simp [long]
  simp (disch := decide) only [decode, if_neg size, if_neg (Nat.not_lt.2 long), Bytes.field_take]

theorem AdminResponse.decode_take (long : messageLength ≤ bytes.length) :
    decode (bytes.take messageLength) = decode bytes := by
  have size : ¬(bytes.take messageLength).length < messageLength := by simp [long]
  simp (disch := decide) only [decode, if_neg size, if_neg (Nat.not_lt.2 long), Bytes.field_take]

theorem SlaParameters.decode_take {ringCount : Nat} (few : ringCount ≤ maxRings)
    (long : parameterBlockSize ≤ bytes.length) :
    decode (bytes.take parameterBlockSize) ringCount = decode bytes ringCount := by
  have size : ¬(bytes.take parameterBlockSize).length < parameterBlockSize := by simp [long]
  have rings : (List.range ringCount).map (ringAt (bytes.take parameterBlockSize)) =
      (List.range ringCount).map (ringAt bytes) := by
    refine List.map_congr_left fun position mem => ?_
    have inside : 32 + 2 * position + 2 ≤ parameterBlockSize := by
      simp only [List.mem_range, maxRings, parameterBlockSize] at mem few ⊢
      omega
    rw [ringAt, ringAt, Bytes.field_take inside]
  simp (disch := decide) only [decode, size, Nat.not_lt.2 few, Nat.not_lt.2 long, or_self, if_false,
    tokenAt, rings, Bytes.field_take]

theorem AdminRequest.read_eq (bytes : List UInt8) : read bytes = some (decode bytes) :=
  Reader.whole_eq (fun _ => run_reader) (fun short => by rw [decode, if_pos short]) decode_take

theorem AdminResponse.read_eq (bytes : List UInt8) : read bytes = some (decode bytes) :=
  Reader.whole_eq (fun _ => run_reader) (fun short => by rw [decode, if_pos short]) decode_take

theorem SlaParameters.read_eq (bytes : List UInt8) (ringCount : Nat) :
    read bytes ringCount = some (decode bytes ringCount) := by
  rw [read]
  split
  · next many => rw [decode, if_pos (.inr many)]
  · next few =>
    rw [Nat.not_lt] at few
    apply Reader.whole_eq
    · exact fun _ size => run_reader size few
    · exact fun short => by rw [decode, if_pos (.inl short)]
    · exact decode_take few

end Decoding

/-! ## Writing -/

/-- What was written, padded to a length; there is nothing if it is too long already. -/
def padded (length : Nat) (written : List UInt8) : Option (List UInt8) :=
  if written.length ≤ length then some (written ++ Bytes.zeros (length - written.length)) else none

/-- Writes a request field by field. -/
def AdminRequest.write (request : AdminRequest) : Option (List UInt8) :=
  padded messageLength
    (Bytes.ofNat 2 request.blockSize.toNat ++ Bytes.ofNat 1 0 ++ [request.command.id] ++
      Bytes.ofNat 4 0 ++ Bytes.ofNat 8 request.block.toNat ++ [request.nodeTag] ++
      [request.service] ++ [request.ringCount] ++ Bytes.ofNat 1 0 ++
      Bytes.ofNat 4 request.nodeIndex.toNat)

/-- Writes the fields of a response in order and pads them to the length of a message. -/
def AdminResponse.write (response : AdminResponse) : Option (List UInt8) :=
  padded messageLength (Bytes.ofNat 1 0 ++ [response.commandId] ++ [response.status])

/-- Writes a parameter block field by field; rings past the sixteenth are left out. -/
def SlaParameters.write (parameters : SlaParameters) : Option (List UInt8) :=
  padded parameterBlockSize
    ((parameters.tokens.toList.flatMap fun word => Bytes.ofNat 4 word.toNat) ++
      (parameters.rings.take maxRings).flatMap fun ring => Bytes.ofNat 2 ring.toNat)

theorem padded_eq {written : List UInt8} {rest length : Nat} (size : written.length + rest = length) :
    padded length written = some (written ++ Bytes.zeros rest) := by
  subst size
  simp [padded]

theorem AdminRequest.write_eq (request : AdminRequest) : request.write = some request.encode := by
  rw [write, padded_eq (show _ + 8 = messageLength by simp [messageLength])]
  simp [encode, Bytes.ofNat, Bytes.zeros]

theorem AdminResponse.write_eq (response : AdminResponse) :
    response.write = some response.encode := rfl

theorem SlaParameters.write_eq (parameters : SlaParameters) :
    parameters.write = some parameters.encode := by
  have size := parameters.length_encode
  rw [encode, List.length_append, Bytes.length_zeros] at size
  rw [write, padded_eq size, encode]

end RateTree
