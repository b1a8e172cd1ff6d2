import RateTree.Admin.Channel
import RateTree.Admin.Firmware
import RateTree.Proofs.Ensures
import RateTree.Proofs.NodeStore
import RateTree.Proofs.Wire

/-!
# Programming the firmware

A request is either carried out, which changes the entry of one node, or it leaves the entries of the
firmware as they are, whether it was lost or answered with a refusal. The entries are looked up by
key, and no key has two of them.
-/

namespace RateTree

/-- The key under which the firmware keeps the parameters of a node. -/
def NodeId.entryKey (id : NodeId) : UInt8 × UInt32 := (id.tag.toUInt8, id.index.toUInt32)

namespace Firmware

/-- What a command that is carried out makes of the entries. -/
inductive Reprogrammed (key : UInt8 × UInt32) (parameters : SlaParameters)
    (entries : List ((UInt8 × UInt32) × SlaParameters)) :
    AdminCommand → List ((UInt8 × UInt32) × SlaParameters) → Prop where
  | init : Reprogrammed key parameters entries .init []
  | add (free : entries.lookup key = none) :
      Reprogrammed key parameters entries .add ((key, parameters) :: entries)
  | update (held : (entries.lookup key).isSome = true) :
      Reprogrammed key parameters entries .update (entries.map fun (other, old) =>
        (other, if other = key then parameters else old))
  | delete (held : (entries.lookup key).isSome = true) :
      Reprogrammed key parameters entries .delete (entries.filter fun entry => entry.1 != key)

variable {key : UInt8 × UInt32} {parameters : SlaParameters}
  {entries updated : List ((UInt8 × UInt32) × SlaParameters)} {command : AdminCommand}

theorem lookup_map (other : UInt8 × UInt32) :
    (entries.map fun (place, old) => (place, if place = key then parameters else old)).lookup other =
      (entries.lookup other).map fun old => if other = key then parameters else old := by
  induction entries with
  | nil => rfl
  | cons entry rest ih =>
      rcases entry with ⟨place, old⟩
      rw [List.map_cons, List.lookup_cons, List.lookup_cons, ih]
      by_cases here : other = place
      · subst here
        simp
      · rw [beq_false_of_ne here]

theorem lookup_filter (other : UInt8 × UInt32) :
    (entries.filter fun entry => entry.1 != key).lookup other =
      if other = key then none else entries.lookup other := by
  induction entries with
  | nil => simp
  | cons entry rest ih =>
      rcases entry with ⟨place, old⟩
      by_cases own : place = key
      · subst own
        rw [List.filter_cons_of_neg (by simp), ih, List.lookup_cons]
        split
        · rfl
        · next apart => rw [beq_false_of_ne apart]
      · rw [List.filter_cons_of_pos (by simpa using own), List.lookup_cons, List.lookup_cons, ih]
        by_cases here : other = place
        · subst here
          simp [own]
        · rw [beq_false_of_ne here]

namespace Reprogrammed

/-- The entries of the other keys stay; that of the key is the one given, or gone. -/
theorem lookup (reprogrammed : Reprogrammed key parameters entries command updated)
    (no_reset : command ≠ .init) (other : UInt8 × UInt32) :
    updated.lookup other =
      if other = key then if command = .delete then none else some parameters
      else entries.lookup other := by
  cases reprogrammed with
  | init => exact absurd rfl no_reset
  | add free =>
      rw [List.lookup_cons]
      by_cases own : other = key
      · simp [own]
      · rw [beq_false_of_ne own, if_neg own]
  | update held =>
      rw [lookup_map]
      by_cases own : other = key
      · subst own
        rcases Option.isSome_iff_exists.1 held with ⟨old, found⟩
        simp [found]
      · simp [own]
  | delete held =>
      rw [lookup_filter]
      simp

/-- Deleting takes no parameters. -/
theorem of_delete {other : SlaParameters}
    (reprogrammed : Reprogrammed key parameters entries command updated)
    (deleted : command = .delete) : Reprogrammed key other entries command updated := by
  cases reprogrammed with
  | delete held => exact .delete held
  | init | add _ | update _ => cases deleted

theorem distinct (reprogrammed : Reprogrammed key parameters entries command updated)
    (before : (entries.map Prod.fst).Nodup) : (updated.map Prod.fst).Nodup := by
  cases reprogrammed with
  | init => exact .nil
  | add free =>
      refine List.nodup_cons.2 ⟨?_, before⟩
      intro mem
      rcases List.mem_map.1 mem with ⟨entry, entry_mem, same⟩
      have absent := List.lookup_eq_none_iff.1 free entry entry_mem
      simp [same] at absent
  | update held =>
      rw [List.map_map]
      exact before
  | delete held => exact (List.filter_sublist.map Prod.fst).nodup before

end Reprogrammed

variable {request : AdminRequest} {given : Option SlaParameters}

theorem reprogrammed_of_execute {firmware : Firmware}
    (accepted : (firmware.execute request given).1 = 0) :
    Reprogrammed (request.nodeTag, request.nodeIndex) (given.getD .empty) firmware.configured
      request.command (firmware.execute request given).2.configured := by
  rcases request with ⟨command, blockSize, block, nodeTag, service, ringCount, nodeIndex⟩
  cases command with
  | init => exact .init
  | add =>
      simp only [execute] at accepted ⊢
      split at accepted
      · simp [rejected] at accepted
      · next possible =>
        rw [if_neg possible]
        simp only [Bool.or_eq_true, not_or, Option.not_isSome_iff_eq_none] at possible
        exact .add possible.2
  | update =>
      simp only [execute] at accepted ⊢
      split at accepted
      · simp [rejected] at accepted
      · next possible =>
        rw [if_neg possible]
        simp only [Bool.or_eq_true, not_or, Bool.not_eq_true, Option.isNone_eq_false_iff] at possible
        exact .update possible.2
  | delete =>
      simp only [execute] at accepted ⊢
      split at accepted
      · simp [rejected] at accepted
      · next possible =>
        rw [if_neg possible]
        simp only [Bool.or_eq_true, not_or, Bool.not_eq_true, Option.isNone_eq_false_iff] at possible
        exact .delete possible.2

theorem configured_of_execute {firmware : Firmware}
    (failed : (firmware.execute request given).1 ≠ 0) :
    (firmware.execute request given).2.configured = firmware.configured := by
  rcases request with ⟨command, blockSize, block, nodeTag, service, ringCount, nodeIndex⟩
  cases command with
  | init => exact absurd rfl failed
  | add | update | delete =>
      simp only [execute] at failed ⊢
      split at failed
      · next refused => rw [if_pos refused]
      · simp at failed

/-- What the firmware has done when it answers a request: it has carried the request out if the status
is zero, and has left its entries alone otherwise. -/
structure Answered (request : AdminRequest) (given : Option SlaParameters) (before after : Firmware)
    (response : AdminResponse) : Prop where
  commandId_eq : response.commandId = request.command.id
  carried_out : response.status = 0 →
    Reprogrammed (request.nodeTag, request.nodeIndex) (given.getD .empty) before.configured
      request.command after.configured
  refused : response.status ≠ 0 → after.configured = before.configured

/-- Serving a request never ends in a fault. -/
theorem serve_ensures (memory : Nat → Option (List UInt8)) (request : AdminRequest)
    (firmware : Firmware) :
    Action.Ensures (fun _ => True) (serve memory request) firmware
      (fun response after => ∃ given, readParameters memory request = .ok given ∧
        Answered request given firmware after response)
      fun after => after.configured = firmware.configured := by
  refine (Action.Ensures.check ?_).bind ?_
  · rfl
  rintro given _ ⟨read, rfl⟩
  apply (Action.Ensures.modify fun _ => trivial).bind
  rintro _ _ rfl
  rw [answer]
  apply Action.Ensures.get.bind
  rintro _ _ ⟨rfl, rfl⟩
  split
  · apply (Action.Ensures.modify fun _ => trivial).bind
    rintro _ _ rfl
    exact .refuse rfl
  · split
    · apply (Action.Ensures.modify fun _ => trivial).bind
      rintro _ _ rfl
      refine .pure ⟨given, read, rfl, ?_, fun _ => rfl⟩
      intro accepted
      simp [rejected] at accepted
    · apply (Action.Ensures.modify fun _ => trivial).bind
      rintro _ _ rfl
      refine .pure ⟨given, read, rfl, ?_, ?_⟩
      · intro accepted
        exact reprogrammed_of_execute accepted
      · intro failed
        exact configured_of_execute failed

theorem receive_ensures (memory : Nat → Option (List UInt8)) (request : AdminRequest)
    (firmware : Firmware) :
    Action.Ensures (fun _ => True) (receive memory request.encode) firmware
      (fun response after => ∃ given, readParameters memory request = .ok given ∧
        Answered request given firmware after response)
      fun after => after.configured = firmware.configured := by
  rw [receive, AdminRequest.decode_encode]
  exact serve_ensures memory request firmware

end Firmware

namespace AdminChannel

theorem ringIds_eq_ok {rings : List Nat} {ids : List UInt16} :
    ringIds rings = .ok ids ↔
      rings.length ≤ maxRings ∧ (∀ ring ∈ rings, ring < 2 ^ 16) ∧ ids = rings.map Nat.toUInt16 := by
  simp only [ringIds]
  split
  · next many =>
    simp only [reduceCtorEq, false_iff]
    omega
  · next few =>
    split
    · next large =>
      simp only [List.any_eq_true, decide_eq_true_eq] at large
      rcases large with ⟨ring, mem, high⟩
      simp only [reduceCtorEq, false_iff]
      rintro ⟨-, small, -⟩
      have := small ring mem
      omega
    · next small =>
      simp only [Bool.not_eq_true, List.any_eq_false, decide_eq_true_eq, Nat.not_le] at small
      simp only [Except.ok.injEq]
      constructor
      · rintro rfl
        exact ⟨by omega, small, rfl⟩
      · rintro ⟨-, -, rfl⟩
        rfl

theorem map_toNat_toUInt16 {rings : List Nat} (small : ∀ ring ∈ rings, ring < 2 ^ 16) :
    (rings.map Nat.toUInt16).map UInt16.toNat = rings := by
  rw [List.map_map]
  refine (List.map_congr_left ?_).trans rings.map_id
  intro ring mem
  simpa using small ring mem

theorem entryKey_slaRequest {id : NodeId} {kind : NodeKind} (known : id.kind? = some kind)
    (command : AdminCommand) (service : Service) (rings iova : Nat) :
    ((slaRequest command kind id service rings iova).nodeTag,
      (slaRequest command kind id service rings iova).nodeIndex) = id.entryKey := by
  simp only [slaRequest, NodeId.entryKey, NodeId.tag_eq_of_kind? known]

/-- The firmware decodes the block that a request names. -/
theorem readParameters_of_held {memory : Nat → Option (List UInt8)} {iova rings : Nat}
    {bytes : List UInt8} (positive : 0 < iova) (fits : iova < 2 ^ 64) (few : rings ≤ maxRings)
    (held : memory iova = some bytes) (command : AdminCommand) (kind : NodeKind) (id : NodeId)
    (service : Service) :
    Firmware.readParameters memory (slaRequest command kind id service rings iova) =
      (SlaParameters.decode bytes rings).map some := by
  have exact : iova.toUInt64.toNat = iova := by
    simp only [Nat.toUInt64, UInt64.toNat_ofNat']
    omega
  have there : iova.toUInt64 ≠ 0 := by
    intro none
    have zero := congrArg UInt64.toNat none
    rw [exact] at zero
    simp only [UInt64.toNat_zero] at zero
    omega
  have count : rings.toUInt8.toNat = rings := by
    simp only [maxRings] at few
    simp only [Nat.toUInt8, UInt8.toNat_ofNat']
    omega
  have size : ¬(parameterBlockSize.toUInt16.toNat < parameterBlockSize) := by decide
  simp only [Firmware.readParameters, slaRequest, if_neg there, if_neg size, exact, held, count]

/-- The firmware reads the parameters from the block they were written to. -/
theorem readParameters_slaRequest {memory : Nat → Option (List UInt8)} {parameters : SlaParameters}
    {iova : Nat} (positive : 0 < iova) (fits : iova < 2 ^ 64)
    (room : parameters.rings.length ≤ maxRings) (held : memory iova = some parameters.encode)
    (command : AdminCommand) (kind : NodeKind) (id : NodeId) (service : Service) :
    Firmware.readParameters memory
      (slaRequest command kind id service parameters.rings.length iova) =
        .ok (some parameters) := by
  rw [readParameters_of_held positive fits room held, SlaParameters.decode_encode room]
  rfl

end AdminChannel

namespace Firmware

/-- A block of the right size can be read, whatever it holds. -/
theorem exists_readParameters {memory : Nat → Option (List UInt8)} {iova rings : Nat}
    {bytes : List UInt8} (positive : 0 < iova) (fits : iova < 2 ^ 64) (few : rings ≤ maxRings)
    (held : memory iova = some bytes) (exact : bytes.length = parameterBlockSize)
    (command : AdminCommand) (kind : NodeKind) (id : NodeId) (service : Service) :
    ∃ given, readParameters memory (AdminChannel.slaRequest command kind id service rings iova) =
      .ok given := by
  have well_formed : ¬(bytes.length < parameterBlockSize ∨ maxRings < rings) := by omega
  rw [AdminChannel.readParameters_of_held positive fits few held, SlaParameters.decode,
    if_neg well_formed]
  exact ⟨_, rfl⟩

end Firmware

end RateTree
