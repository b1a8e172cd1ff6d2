import Mathlib.Data.List.Basic
import RateTree.Proofs.Streams

/-!
# Round trips

What is encoded is decoded to itself, a record is decoded exactly if it is long enough and says something,
and a decoded record is encoded as it was but for its reserved bytes, which become zero.
-/

namespace RateTree

namespace Bytes

variable {record : List UInt8} {reserved : Nat → Bool} {offset width : Nat}

/-- A field's bytes with the reserved ones set to zero. -/
def cleared (reserved : Nat → Bool) (record : List UInt8) (offset width : Nat) : List UInt8 :=
  (window record offset width).mapIdx fun index byte =>
    if reserved (offset + index) then 0 else byte

theorem window_add (record : List UInt8) (offset first second : Nat) :
    window record offset (first + second) =
      window record offset first ++ window record (offset + first) second := by
  rw [window, window, window, List.take_add, List.drop_drop]

/-- Fields of one width that follow one another are one field. -/
theorem flatMap_windows (record : List UInt8) (offset width count : Nat) :
    ((List.range count).flatMap fun position => window record (offset + width * position) width) =
      window record offset (width * count) := by
  induction count with
  | zero => rfl
  | succ count ih =>
      rw [List.range_succ, List.flatMap_append, ih, List.flatMap_singleton, Nat.mul_succ, window_add]

theorem cleared_add {first second : Nat} (inside : offset + first ≤ record.length) :
    cleared reserved record offset (first + second) =
      cleared reserved record offset first ++ cleared reserved record (offset + first) second := by
  rw [cleared, cleared, cleared, window_add, List.mapIdx_append, length_window inside]
  simp only [Nat.add_assoc, Nat.add_comm first]

theorem cleared_of_kept (kept : ∀ index < width, reserved (offset + index) = false) :
    cleared reserved record offset width = window record offset width := by
  apply List.ext_getElem
  · rw [cleared, List.length_mapIdx]
  · intro index _ inside
    have below : index < width := Nat.lt_of_lt_of_le inside (List.length_take_le _ _)
    simp only [cleared, List.getElem_mapIdx, kept index below, Bool.false_eq_true, if_false]

theorem cleared_of_reserved (inside : offset + width ≤ record.length)
    (all : ∀ index < width, reserved (offset + index) = true) :
    cleared reserved record offset width = zeros width := by
  rw [zeros, List.eq_replicate_iff, cleared, List.length_mapIdx, length_window inside]
  refine ⟨rfl, ?_⟩
  intro byte mem
  rcases List.mem_mapIdx.1 mem with ⟨index, below, rfl⟩
  rw [length_window inside] at below
  simp only [all index below, if_true]

theorem toUInt8_field (inside : offset + 1 ≤ record.length) :
    [(field record offset 1).toUInt8] = window record offset 1 :=
  ofNat_field inside

/-- Nothing is cut off a number when it becomes a word of its width. -/
theorem ofNat_field_mod (inside : offset + width ≤ record.length) :
    ofNat width (field record offset width % limit width) = window record offset width := by
  rw [Nat.mod_eq_of_lt (field_lt inside), ofNat_field inside]

theorem toUInt16_field (inside : offset + 2 ≤ record.length) :
    ofNat 2 (field record offset 2).toUInt16.toNat = window record offset 2 :=
  ofNat_field_mod inside

theorem toUInt32_field (inside : offset + 4 ≤ record.length) :
    ofNat 4 (field record offset 4).toUInt32.toNat = window record offset 4 :=
  ofNat_field_mod inside

theorem toUInt64_field (inside : offset + 8 ≤ record.length) :
    ofNat 8 (field record offset 8).toUInt64.toNat = window record offset 8 :=
  ofNat_field_mod inside

theorem toUInt8_field_eq (inside : offset < record.length) :
    (field record offset 1).toUInt8 = record[offset] := by
  have same : [(field record offset 1).toUInt8] = window record offset 1 := toUInt8_field inside
  rw [window, List.drop_eq_getElem_cons inside, List.take_succ_cons, List.take_zero] at same
  exact List.singleton_inj.1 same

end Bytes

/-- A way to put messages on the wire, as whole fields and byte by byte. -/
structure MessageFormat (ρ : Type) where
  encode : ρ → List UInt8
  write : ρ → Option (List UInt8)
  decode : List UInt8 → Except Error ρ
  read : List UInt8 → Option (Except Error ρ)
  /-- What bytes that are long enough have to say to be a message. -/
  Accepted : List UInt8 → Prop
  /-- The positions of the bytes that say nothing. -/
  reserved : Nat → Bool

/-- Whether a format loses nothing in either direction and never gets stuck. -/
structure MessageFormat.RoundTrips {ρ : Type} (format : MessageFormat ρ) : Prop where
  length_encode : ∀ message, (format.encode message).length = messageLength
  decode_encode : ∀ message, format.decode (format.encode message) = .ok message
  decodes_iff : ∀ bytes, (∃ message, format.decode bytes = .ok message) ↔
    messageLength ≤ bytes.length ∧ format.Accepted bytes
  encode_of_decode : ∀ bytes message, format.decode bytes = .ok message →
    format.encode message = Bytes.cleared format.reserved bytes 0 messageLength
  written : ∀ message, format.write message = some (format.encode message)
  read_off : ∀ bytes, format.read bytes = some (format.decode bytes)

namespace MessageFormat

variable {ρ : Type} (format : MessageFormat ρ) {bytes : List UInt8}

theorem cleared_kept (long : messageLength ≤ bytes.length) (offset width : Nat) {rest : Nat}
    (inside : offset + width ≤ messageLength)
    (kept : ∀ index < width, format.reserved (offset + index) = false) :
    Bytes.cleared format.reserved bytes offset (width + rest) =
      Bytes.window bytes offset width ++
        Bytes.cleared format.reserved bytes (offset + width) rest := by
  rw [Bytes.cleared_add (Nat.le_trans inside long), Bytes.cleared_of_kept kept]

theorem cleared_reserved (long : messageLength ≤ bytes.length) (offset width : Nat) {rest : Nat}
    (inside : offset + width ≤ messageLength)
    (all : ∀ index < width, format.reserved (offset + index) = true) :
    Bytes.cleared format.reserved bytes offset (width + rest) =
      Bytes.zeros width ++ Bytes.cleared format.reserved bytes (offset + width) rest := by
  have within := Nat.le_trans inside long
  rw [Bytes.cleared_add within, Bytes.cleared_of_reserved within all]

end MessageFormat

/-- Requests, which name a command in the byte at position three. -/
def AdminRequest.format : MessageFormat AdminRequest where
  encode := encode
  write := write
  decode := decode
  read := read
  Accepted bytes := ∃ command : AdminCommand, bytes[3]? = some command.id
  reserved position := position = 2 || 4 ≤ position && position < 8 || position = 19 || 24 ≤ position

/-- The format of responses: any response is accepted, and all bytes but two are reserved. -/
def AdminResponse.format : MessageFormat AdminResponse where
  encode := encode
  write := write
  decode := decode
  read := read
  Accepted _ := True
  reserved position := position ≠ 1 && position ≠ 2

theorem AdminCommand.ofId?_eq_some {id : UInt8} {command : AdminCommand} :
    ofId? id = some command ↔ id = command.id := by
  constructor
  · intro known
    simp only [ofId?] at known
    repeat' split at known
    all_goals cases known
    all_goals assumption
  · rintro rfl
    exact ofId?_id command

namespace AdminRequest

theorem decode_eq_ok {bytes : List UInt8} {request : AdminRequest} :
    decode bytes = .ok request ↔ messageLength ≤ bytes.length ∧
      ∃ command : AdminCommand, (Bytes.field bytes 3 1).toUInt8 = command.id ∧
        request =
          { command
            blockSize := (Bytes.field bytes 0 2).toUInt16
            block := (Bytes.field bytes 8 8).toUInt64
            nodeTag := (Bytes.field bytes 16 1).toUInt8
            service := (Bytes.field bytes 17 1).toUInt8
            ringCount := (Bytes.field bytes 18 1).toUInt8
            nodeIndex := (Bytes.field bytes 20 4).toUInt32 } := by
  rw [decode]
  split
  · next short =>
    simp only [reduceCtorEq, false_iff, not_and]
    intro long
    omega
  · next long =>
    rw [Nat.not_lt] at long
    simp only [long, true_and, ← AdminCommand.ofId?_eq_some]
    cases AdminCommand.ofId? (Bytes.field bytes 3 1).toUInt8 with
    | none => simp
    | some command => simp [eq_comm]

theorem encode_of_decode {bytes : List UInt8} {request : AdminRequest}
    (decoded : decode bytes = .ok request) :
    request.encode = Bytes.cleared format.reserved bytes 0 messageLength := by
  rcases decode_eq_ok.1 decoded with ⟨long, command, named, rfl⟩
  -- The record falls into fields, each of which is kept or cleared as a whole.
  have fields : messageLength =
    2 + (1 + (1 + (4 + (8 + (1 + (1 + (1 + (1 + (4 + (8 + 0)))))))))) := rfl
  rw [fields, format.cleared_kept long 0 2 (by decide) (by decide),
    format.cleared_reserved long 2 1 (by decide) (by decide),
    format.cleared_kept long 3 1 (by decide) (by decide),
    format.cleared_reserved long 4 4 (by decide) (by decide),
    format.cleared_kept long 8 8 (by decide) (by decide),
    format.cleared_kept long 16 1 (by decide) (by decide),
    format.cleared_kept long 17 1 (by decide) (by decide),
    format.cleared_kept long 18 1 (by decide) (by decide),
    format.cleared_reserved long 19 1 (by decide) (by decide),
    format.cleared_kept long 20 4 (by decide) (by decide),
    format.cleared_reserved long 24 8 (by decide) (by decide)]
  rw [messageLength] at long
  have id : Bytes.window bytes 3 1 = [command.id] := by
    rw [← named, Bytes.toUInt8_field (by omega)]
  simp (disch := omega) only [encode, Bytes.toUInt16_field, Bytes.toUInt32_field,
    Bytes.toUInt64_field, id, ← Bytes.toUInt8_field, List.append_assoc]
  rfl

theorem decodes_iff (bytes : List UInt8) :
    (∃ request, decode bytes = .ok request) ↔
      messageLength ≤ bytes.length ∧ format.Accepted bytes := by
  simp only [decode_eq_ok, exists_and_left, and_congr_right_iff]
  intro long
  have inside : 3 < bytes.length := Nat.lt_of_lt_of_le (by decide) long
  simp only [format, List.getElem?_eq_getElem inside, Option.some.injEq,
    ← Bytes.toUInt8_field_eq inside]
  constructor
  · rintro ⟨_, command, named, -⟩
    exact ⟨command, named⟩
  · rintro ⟨command, named⟩
    exact ⟨_, command, named, rfl⟩

theorem roundTrips : format.RoundTrips where
  length_encode := length_encode
  decode_encode := decode_encode
  decodes_iff := decodes_iff
  encode_of_decode _ _ := encode_of_decode
  written := write_eq
  read_off := read_eq

end AdminRequest

namespace AdminResponse

theorem decode_eq_ok {bytes : List UInt8} {response : AdminResponse} :
    decode bytes = .ok response ↔ messageLength ≤ bytes.length ∧
      response = ⟨(Bytes.field bytes 1 1).toUInt8, (Bytes.field bytes 2 1).toUInt8⟩ := by
  rw [decode]
  split
  · next short =>
    simp only [reduceCtorEq, false_iff, not_and]
    intro long
    omega
  · next long =>
    rw [Nat.not_lt] at long
    simp only [long, true_and, Except.ok.injEq]
    exact eq_comm

theorem encode_of_decode {bytes : List UInt8} {response : AdminResponse}
    (decoded : decode bytes = .ok response) :
    response.encode = Bytes.cleared format.reserved bytes 0 messageLength := by
  rcases decode_eq_ok.1 decoded with ⟨long, rfl⟩
  have fields : messageLength = 1 + (1 + (1 + (29 + 0))) := rfl
  rw [fields, format.cleared_reserved long 0 1 (by decide) (by decide),
    format.cleared_kept long 1 1 (by decide) (by decide),
    format.cleared_kept long 2 1 (by decide) (by decide),
    format.cleared_reserved long 3 29 (by decide) (by decide)]
  rw [messageLength] at long
  simp (disch := omega) only [encode, ← Bytes.toUInt8_field]
  rfl

theorem roundTrips : format.RoundTrips where
  length_encode := length_encode
  decode_encode := decode_encode
  decodes_iff bytes := by simp [format, decode_eq_ok]
  encode_of_decode _ _ := encode_of_decode
  written := write_eq
  read_off := read_eq

end AdminResponse

namespace SlaParameters

/-- Whether parameter blocks, which do not say how many rings they list, lose nothing to a reader who knows
and never get stuck. -/
structure RoundTrips : Prop where
  length_encode : ∀ parameters : SlaParameters, parameters.encode.length = 64
  decode_encode : ∀ parameters : SlaParameters, ∀ ringCount,
    ringCount = min parameters.rings.length 16 →
      decode parameters.encode ringCount = .ok ⟨parameters.tokens, parameters.rings.take ringCount⟩
  decodes_iff : ∀ bytes ringCount, (∃ parameters, decode bytes ringCount = .ok parameters) ↔
    64 ≤ bytes.length ∧ ringCount ≤ 16
  encode_of_decode : ∀ bytes ringCount parameters, decode bytes ringCount = .ok parameters →
    parameters.encode =
      Bytes.cleared (fun position => 32 + 2 * ringCount ≤ position) bytes 0 parameterBlockSize
  written : ∀ parameters : SlaParameters, parameters.write = some parameters.encode
  read_off : ∀ bytes ringCount, read bytes ringCount = some (decode bytes ringCount)

theorem encode_take (parameters : SlaParameters) :
    encode ⟨parameters.tokens, parameters.rings.take maxRings⟩ = parameters.encode := by
  simp only [encode, List.take_take, Nat.min_self]

theorem decode_encode_min (parameters : SlaParameters) :
    decode parameters.encode (min parameters.rings.length maxRings) =
      .ok ⟨parameters.tokens, parameters.rings.take maxRings⟩ := by
  have few : (parameters.rings.take maxRings).length ≤ maxRings := List.length_take_le _ _
  have back : decode (encode ⟨parameters.tokens, parameters.rings.take maxRings⟩) _ = .ok _ :=
    decode_encode few
  rwa [encode_take, List.length_take, Nat.min_comm] at back

theorem decode_eq_ok {bytes : List UInt8} {ringCount : Nat} {parameters : SlaParameters} :
    decode bytes ringCount = .ok parameters ↔
      (parameterBlockSize ≤ bytes.length ∧ ringCount ≤ maxRings) ∧
      parameters =
        { tokens :=
            ⟨⟨tokenAt bytes 0, tokenAt bytes 2, tokenAt bytes 4, tokenAt bytes 6⟩,
              ⟨tokenAt bytes 1, tokenAt bytes 3, tokenAt bytes 5, tokenAt bytes 7⟩⟩
          rings := (List.range ringCount).map (ringAt bytes) } := by
  rw [decode, ← Nat.not_lt, ← Nat.not_lt, ← not_or]
  split
  · next refused => simp only [refused, reduceCtorEq, not_true, false_and]
  · next accepted =>
    simp only [accepted, not_false_eq_true, true_and, Except.ok.injEq]
    exact eq_comm

/-- The tokens that were read are written to the bytes they were read from. -/
theorem flatMap_tokenAt {bytes : List UInt8} (inside : 32 ≤ bytes.length) :
    (((List.range 8).map (tokenAt bytes)).flatMap fun word => Bytes.ofNat 4 word.toNat) =
      Bytes.window bytes 0 32 := by
  rw [← Bytes.flatMap_windows bytes 0 4 8, List.flatMap_map]
  refine List.flatMap_congr fun position mem => ?_
  rw [List.mem_range] at mem
  rw [tokenAt, Nat.zero_add, Bytes.toUInt32_field (by omega)]

theorem flatMap_ringAt {bytes : List UInt8} {ringCount : Nat}
    (inside : 32 + 2 * ringCount ≤ bytes.length) :
    (((List.range ringCount).map (ringAt bytes)).flatMap fun ring => Bytes.ofNat 2 ring.toNat) =
      Bytes.window bytes 32 (2 * ringCount) := by
  rw [← Bytes.flatMap_windows bytes 32 2 ringCount, List.flatMap_map]
  refine List.flatMap_congr fun position mem => ?_
  rw [List.mem_range] at mem
  rw [ringAt, Bytes.toUInt16_field (by omega)]

theorem encode_of_decode {bytes : List UInt8} {ringCount : Nat} {parameters : SlaParameters}
    (decoded : decode bytes ringCount = .ok parameters) :
    parameters.encode =
      Bytes.cleared (fun position => 32 + 2 * ringCount ≤ position) bytes 0 parameterBlockSize := by
  rcases decode_eq_ok.1 decoded with ⟨⟨long, few⟩, rfl⟩
  rw [parameterBlockSize] at long
  rw [maxRings] at few
  have fields : parameterBlockSize = 32 + 2 * ringCount + 2 * (16 - ringCount) := by
    rw [parameterBlockSize]
    omega
  have all : ((List.range ringCount).map (ringAt bytes)).take maxRings =
      (List.range ringCount).map (ringAt bytes) :=
    List.take_of_length_le (by simpa [maxRings] using few)
  have tokens := flatMap_tokenAt (Nat.le_trans (by decide) long)
  have rings := flatMap_ringAt (Nat.le_trans (by omega) long : 32 + 2 * ringCount ≤ bytes.length)
  rw [fields, Bytes.cleared_add (by omega), Bytes.cleared_of_kept, Bytes.cleared_of_reserved,
    Bytes.window_add, Nat.zero_add, ← tokens, ← rings, encode, all, List.length_map,
    List.length_range]
  · rfl
  · omega
  · intro index _
    simp
  · intro index below
    simpa using below

theorem roundTrips : RoundTrips where
  length_encode := length_encode
  decode_encode parameters ringCount known := by
    rw [known]
    exact (decode_encode_min parameters).trans (by rw [List.take_eq_take_min, Nat.min_comm, maxRings])
  decodes_iff bytes ringCount := by simp [decode_eq_ok, parameterBlockSize, maxRings]
  encode_of_decode _ _ _ := encode_of_decode
  written := write_eq
  read_off := read_eq

end SlaParameters

/-- Requests, responses and parameter blocks survive being encoded and decoded, what is decoded is encoded as
it was but for bytes that say nothing, and neither gets stuck. -/
theorem wire_formats_round_trip :
    AdminRequest.format.RoundTrips ∧ AdminResponse.format.RoundTrips ∧ SlaParameters.RoundTrips :=
  ⟨AdminRequest.roundTrips, AdminResponse.roundTrips, SlaParameters.roundTrips⟩

end RateTree
