import RateTree.Admin.Parameters
import RateTree.Admin.Request
import RateTree.Admin.Response

/-!
# Records on the wire

A request that was encoded is decoded to itself, and so is a parameter block that has room for its
rings.
-/

namespace RateTree

namespace Bytes

/-- A field past the first part of a record is a field of the rest. -/
theorem field_append_of_le {first rest : List UInt8} {offset : Nat} (width : Nat)
    (past : first.length ≤ offset) :
    field (first ++ rest) offset width = field rest (offset - first.length) width := by
  simp only [field, List.drop_append, List.drop_eq_nil_of_le past, List.nil_append]

theorem toNat_ofNat_of_lt {width value : Nat} (small : value < limit width) :
    toNat (ofNat width value) = value := by
  rw [toNat_ofNat, Nat.mod_eq_of_lt small]

/-- The number at the start of a record. -/
theorem field_ofNat_append {width value : Nat} (small : value < limit width) (rest : List UInt8) :
    field (ofNat width value ++ rest) 0 width = value := by
  have first : (ofNat width value ++ rest).take width = ofNat width value := by
    have whole : (ofNat width value ++ rest).take (ofNat width value).length = ofNat width value :=
      List.take_left
    rwa [length_ofNat] at whole
  rw [field, List.drop_zero, first, toNat_ofNat_of_lt small]

/-- A number in a list of numbers of one width. -/
theorem field_flatMap {width : Nat} {values : List Nat} (small : ∀ value ∈ values, value < limit width)
    (rest : List UInt8) {position : Nat} (inside : position < values.length) :
    field (values.flatMap (ofNat width) ++ rest) (width * position) width = values[position] := by
  induction values generalizing position with
  | nil => simp at inside
  | cons value others ih =>
      rw [List.flatMap_cons, List.append_assoc]
      cases position with
      | zero => exact field_ofNat_append (small value (by simp)) _
      | succ position =>
          have past : (ofNat width value).length ≤ width * (position + 1) := by
            rw [length_ofNat]
            exact Nat.le_mul_of_pos_right _ (Nat.succ_pos _)
          rw [field_append_of_le width past, length_ofNat, Nat.mul_succ, Nat.add_sub_cancel]
          exact ih (fun other mem => small other (by simp [mem])) (by simpa using inside)

end Bytes

/-- A request is decoded to itself, whatever follows it. -/
theorem AdminRequest.decode_append (request : AdminRequest) (rest : List UInt8) :
    decode (request.encode ++ rest) = .ok request := by
  have command : (Bytes.field (request.encode ++ rest) 0x03 1).toUInt8 = request.command.id := by
    change (request.command.id.toNat + 256 * 0).toUInt8 = request.command.id
    simp
  have blockSize : (Bytes.field (request.encode ++ rest) 0x00 2).toUInt16 = request.blockSize := by
    have small : request.blockSize.toNat < Bytes.limit 2 := request.blockSize.toNat_lt
    change (Bytes.toNat (Bytes.ofNat 2 request.blockSize.toNat)).toUInt16 = request.blockSize
    rw [Bytes.toNat_ofNat_of_lt small]
    simp
  have block : (Bytes.field (request.encode ++ rest) 0x08 8).toUInt64 = request.block := by
    have small : request.block.toNat < Bytes.limit 8 := request.block.toNat_lt
    change (Bytes.toNat (Bytes.ofNat 8 request.block.toNat)).toUInt64 = request.block
    rw [Bytes.toNat_ofNat_of_lt small]
    simp
  have nodeTag : (Bytes.field (request.encode ++ rest) 0x10 1).toUInt8 = request.nodeTag := by
    change (request.nodeTag.toNat + 256 * 0).toUInt8 = request.nodeTag
    simp
  have service : (Bytes.field (request.encode ++ rest) 0x11 1).toUInt8 = request.service := by
    change (request.service.toNat + 256 * 0).toUInt8 = request.service
    simp
  have ringCount : (Bytes.field (request.encode ++ rest) 0x12 1).toUInt8 = request.ringCount := by
    change (request.ringCount.toNat + 256 * 0).toUInt8 = request.ringCount
    simp
  have nodeIndex : (Bytes.field (request.encode ++ rest) 0x14 4).toUInt32 = request.nodeIndex := by
    have small : request.nodeIndex.toNat < Bytes.limit 4 := request.nodeIndex.toNat_lt
    change (Bytes.toNat (Bytes.ofNat 4 request.nodeIndex.toNat)).toUInt32 = request.nodeIndex
    rw [Bytes.toNat_ofNat_of_lt small]
    simp
  have whole : ¬(request.encode ++ rest).length < messageLength := by
    rw [List.length_append, length_encode]
    omega
  simp only [decode, if_neg whole, command, AdminCommand.ofId?_id, blockSize, block, nodeTag, service,
    ringCount, nodeIndex]

theorem AdminRequest.decode_encode (request : AdminRequest) :
    decode request.encode = .ok request := by
  rw [← List.append_nil request.encode, decode_append]

theorem AdminResponse.decode_encode (response : AdminResponse) :
    decode response.encode = .ok response := by
  have commandId : (Bytes.field response.encode 0x01 1).toUInt8 = response.commandId := by
    change (response.commandId.toNat + 256 * 0).toUInt8 = response.commandId
    simp
  have status : (Bytes.field response.encode 0x02 1).toUInt8 = response.status := by
    change (response.status.toNat + 256 * 0).toUInt8 = response.status
    simp
  simp only [decode, length_encode, Nat.lt_irrefl, if_false, commandId, status]

namespace SlaParameters

variable {parameters : SlaParameters}

/-- The rings of a parameter block as bytes. -/
theorem flatMap_rings (rings : List UInt16) :
    (rings.flatMap fun ring => Bytes.ofNat 2 ring.toNat) =
      (rings.map UInt16.toNat).flatMap (Bytes.ofNat 2) := by
  rw [List.flatMap_map]

theorem length_encode (parameters : SlaParameters) :
    parameters.encode.length = parameterBlockSize := by
  have rings_length (rings : List UInt16) :
      (rings.flatMap fun ring => Bytes.ofNat 2 ring.toNat).length = 2 * rings.length := by
    induction rings with
    | nil => rfl
    | cons ring rest ih =>
        simp only [List.flatMap_cons, List.length_append, Bytes.length_ofNat, ih, List.length_cons]
        omega
  have few : (parameters.rings.take maxRings).length ≤ maxRings := List.length_take_le _ _
  rw [encode, List.length_append, List.length_append, rings_length, Bytes.length_zeros]
  simp only [Tokens.toList, List.flatMap_cons, List.flatMap_nil, List.length_append,
    Bytes.length_ofNat, List.length_nil, parameterBlockSize, maxRings] at few ⊢
  omega

theorem tokenAt_encode {position : Nat} {word : UInt32}
    (at_position : parameters.tokens.toList[position]? = some word) :
    tokenAt parameters.encode position = word := by
  rcases List.getElem?_eq_some_iff.1 at_position with ⟨inside, rfl⟩
  have words : (parameters.tokens.toList.flatMap fun word => Bytes.ofNat 4 word.toNat) =
      (parameters.tokens.toList.map UInt32.toNat).flatMap (Bytes.ofNat 4) := by
    rw [List.flatMap_map]
  have small : ∀ value ∈ parameters.tokens.toList.map UInt32.toNat, value < Bytes.limit 4 := by
    intro value mem
    rcases List.mem_map.1 mem with ⟨word, -, rfl⟩
    exact word.toNat_lt
  have value := Bytes.field_flatMap small
    (((parameters.rings.take maxRings).flatMap fun ring => Bytes.ofNat 2 ring.toNat) ++
      Bytes.zeros (2 * (maxRings - (parameters.rings.take maxRings).length)))
    (by simpa using inside)
  rw [tokenAt, encode, words, List.append_assoc, value, List.getElem_map]
  simp

theorem ringAt_encode (room : parameters.rings.length ≤ maxRings) {position : Nat}
    (inside : position < parameters.rings.length) :
    ringAt parameters.encode position = parameters.rings[position] := by
  have tokens_length :
      (parameters.tokens.toList.flatMap fun word => Bytes.ofNat 4 word.toNat).length = 32 := by
    simp [Tokens.toList]
  have past : (parameters.tokens.toList.flatMap fun word => Bytes.ofNat 4 word.toNat).length ≤
      32 + 2 * position := by
    rw [tokens_length]
    exact Nat.le_add_right _ _
  have small : ∀ value ∈ parameters.rings.map UInt16.toNat, value < Bytes.limit 2 := by
    intro value mem
    rcases List.mem_map.1 mem with ⟨ring, -, rfl⟩
    exact ring.toNat_lt
  have value := Bytes.field_flatMap small
    (Bytes.zeros (2 * (maxRings - parameters.rings.length))) (by simpa using inside)
  rw [ringAt, encode, List.take_of_length_le room, List.append_assoc,
    Bytes.field_append_of_le 2 past, tokens_length, Nat.add_sub_cancel_left, flatMap_rings, value,
    List.getElem_map]
  simp

/-- A parameter block with room for its rings is read back as it was written. -/
theorem decode_encode (room : parameters.rings.length ≤ maxRings) :
    decode parameters.encode parameters.rings.length = .ok parameters := by
  have fits : ¬(parameters.encode.length < parameterBlockSize ∨
      maxRings < parameters.rings.length) := by
    rw [length_encode]
    omega
  have rings : (List.range parameters.rings.length).map (ringAt parameters.encode) =
      parameters.rings := by
    apply List.ext_getElem
    · simp
    · intro position _ inside
      rw [List.getElem_map, List.getElem_range, ringAt_encode room inside]
  have pcieInCommitted : tokenAt parameters.encode 0 = parameters.tokens.committed.pcieIn :=
    tokenAt_encode rfl
  have pcieInPeak : tokenAt parameters.encode 1 = parameters.tokens.peak.pcieIn :=
    tokenAt_encode rfl
  have pcieOutCommitted : tokenAt parameters.encode 2 = parameters.tokens.committed.pcieOut :=
    tokenAt_encode rfl
  have pcieOutPeak : tokenAt parameters.encode 3 = parameters.tokens.peak.pcieOut :=
    tokenAt_encode rfl
  have sliceCommitted : tokenAt parameters.encode 4 = parameters.tokens.committed.slice :=
    tokenAt_encode rfl
  have slicePeak : tokenAt parameters.encode 5 = parameters.tokens.peak.slice :=
    tokenAt_encode rfl
  have engineCommitted : tokenAt parameters.encode 6 = parameters.tokens.committed.engine :=
    tokenAt_encode rfl
  have enginePeak : tokenAt parameters.encode 7 = parameters.tokens.peak.engine :=
    tokenAt_encode rfl
  rw [decode, if_neg fits, rings, pcieInCommitted, pcieInPeak, pcieOutCommitted, pcieOutPeak,
    sliceCommitted, slicePeak, engineCommitted, enginePeak]

end SlaParameters

end RateTree
