import RateTree.Host.Vfio
import RateTree.Proofs.Journals
import RateTree.Proofs.Pools

/-!
# Memory behind an IOMMU

The blocks of an open device, handed out, written and released in any order, on a host that may lack the
memory for any of them, and a kernel that may refuse to map or to unmap any of them. Every step adds a whole
part of a mapping's life to the journal, so that the journal stays kept, whatever the host and the kernel
answer.
-/

namespace RateTree

open Journal (Kept InUse Life Placed Safe seen live offered)

/-! ## Opening -/

namespace Kernel

/-- Whether nothing was done with memory so far, so that the device sees none. -/
structure MemoryUntouched (kernel : Kernel) : Prop where
  asides : ∀ event ∈ kernel.journal, event.isMemory = false
  unmapped : kernel.mappings = []

/-- Whether an action does nothing with memory. -/
def LeavesMemory {α : Type} (action : Action Kernel α) : Prop :=
  ∀ kernel, MemoryUntouched kernel → MemoryUntouched (action kernel).2

namespace LeavesMemory

variable {α β : Type} {call : HostCall}

theorem of_still {action : Action Kernel α} (still : ∀ kernel, (action kernel).2 = kernel) :
    LeavesMemory action := by
  intro kernel untouched
  rwa [still]

theorem bind {action : Action Kernel α} {next : α → Action Kernel β} (first : LeavesMemory action)
    (second : ∀ value, LeavesMemory (next value)) : LeavesMemory (action >>= next) := by
  intro kernel untouched
  have kept := first kernel untouched
  rw [Action.bind_apply]
  rcases acted : action kernel with ⟨failure | value, after⟩ <;> rw [acted] at kept
  · exact kept
  · exact second value after kept

theorem pure (value : α) : LeavesMemory (Pure.pure value) := of_still fun _ => rfl

theorem refuse (cause : Error) : LeavesMemory (Action.refuse cause : Action Kernel α) :=
  of_still fun _ => rfl

theorem check (checked : Except Error α) : LeavesMemory (liftM checked) := of_still fun _ => rfl

theorem get_bind {next : Kernel → Action Kernel β} (rest : ∀ kernel, LeavesMemory (next kernel)) :
    LeavesMemory (Action.get >>= next) :=
  bind (of_still fun _ => rfl) rest

theorem record {event : HostEvent} (aside : event.isMemory = false) :
    LeavesMemory (Action.modify (Kernel.record event)) := by
  intro kernel untouched
  exact ⟨List.forall_mem_cons.2 ⟨aside, untouched.asides⟩, untouched.unmapped⟩

theorem repeated {event : HostEvent} (aside : event.isMemory = false) (count : Nat) :
    LeavesMemory (Action.modify (Nat.repeat (Kernel.record event) count)) := by
  intro kernel untouched
  induction count with
  | zero => exact untouched
  | succ count ih => exact record aside _ ih

theorem ask (aside : ∀ error, (HostEvent.called call error).isMemory = false)
    (number : KernelAnswers → Nat) (report : HostError → Error) :
    LeavesMemory (Kernel.ask call number report) :=
  get_bind fun _ => (record (aside _)).bind fun _ => check _

theorem askPath {call : String → HostCall}
    (aside : ∀ path error, (HostEvent.called (call path) error).isMemory = false) (path : String)
    (number : KernelAnswers → Nat) (report : HostError → Error) :
    LeavesMemory (Kernel.askPath call path number report) := by
  unfold Kernel.askPath
  split
  · exact refuse _
  · exact ask (aside path) number report

theorem openFile (path : String) (number : KernelAnswers → Nat) :
    LeavesMemory (Kernel.openFile path number) :=
  askPath (fun _ _ => rfl) path number _

theorem control (aside : ∀ error, (HostEvent.called call error).isMemory = false) (what : String)
    (number : KernelAnswers → Nat) : LeavesMemory (Kernel.control what call number) :=
  ask aside number _

theorem readLink (path : String) (report : HostError → Error) :
    LeavesMemory (Kernel.readLink path report) :=
  (askPath (fun _ _ => rfl) path _ report).bind fun _ =>
    get_bind fun _ => (repeated rfl _).bind fun _ => pure _

theorem findGroup (address : String) : LeavesMemory (VfioDevice.findGroup address) :=
  (readLink _ _).bind fun _ => check _

theorem openContainer : LeavesMemory VfioDevice.openContainer := by
  refine (openFile _ _).bind fun _ => get_bind fun kernel => (record rfl).bind fun _ => ?_
  dsimp only
  by_cases version : kernel.answers.apiVersion ≠ 0
  · rw [if_pos version]
    exact fun _ untouched => untouched
  · rw [if_neg version]
    refine (record rfl).bind fun _ => ?_
    split
    · exact refuse _
    · exact pure _

theorem openGroup (group : Nat) : LeavesMemory (VfioDevice.openGroup group) := by
  refine (openFile _ _).bind fun _ => get_bind fun kernel => (record rfl).bind fun _ => ?_
  split
  · exact refuse _
  · exact pure _

theorem openAt (address : String) : LeavesMemory (VfioDevice.openAt address) := by
  apply (findGroup address).bind
  intro group
  apply openContainer.bind
  intro _
  apply (openGroup group).bind
  intro _
  apply (control (fun _ => rfl) _ _).bind
  intro _
  apply (control (fun _ => rfl) _ _).bind
  intro _
  apply (control (fun _ => rfl) _ _).bind
  intro _
  exact pure _

end LeavesMemory

theorem mapMemory_cases (mapping : DmaMapping) (kernel : Kernel) :
    kernel.nextMapError = 0 ∧ mapMemory mapping kernel =
      (.ok (), { kernel.record (.called (.mapMemory mapping) 0) with
        mappings := mapping :: kernel.mappings }) ∨
    kernel.nextMapError ≠ 0 ∧ ∃ cause, mapMemory mapping kernel =
      (.error (.error cause), kernel.record (.called (.mapMemory mapping) kernel.nextMapError)) := by
  simp only [mapMemory, control, ask, Action.bind_apply, Action.get_apply, Action.modify_apply,
    HostError.check]
  by_cases agreed : kernel.nextMapError = 0
  · rw [if_pos agreed, agreed]
    exact .inl ⟨rfl, rfl⟩
  · rw [if_neg agreed]
    exact .inr ⟨agreed, _, rfl⟩

end Kernel

namespace VfioDevice

theorem eq_of_openAt {address : String} {kernel after : Kernel} {device : VfioDevice}
    (up : openAt address kernel = (.ok device, after)) :
    device = ⟨address, firstAddress, [], [], .empty⟩ := by
  simp only [openAt, Action.bind_eq_ok] at up
  rcases up with ⟨_, _, -, _, _, -, _, _, -, _, _, -, _, _, -, _, _, -, finished⟩
  cases finished
  rfl

theorem memoryUntouched_of_openAt {address : String} {answers : KernelAnswers} {registers : SparseBytes}
    {device : VfioDevice} {kernel : Kernel}
    (up : openAt address (.fresh answers registers) = (.ok device, kernel)) :
    kernel.MemoryUntouched := by
  have untouched := Kernel.LeavesMemory.openAt address (.fresh answers registers)
    ⟨by simp [Kernel.fresh], rfl⟩
  rwa [up] at untouched

end VfioDevice

namespace VfioSession

variable {session after : VfioSession} {size : Nat}

/-! ## What each operation does -/

/-- What the device comes to see of the next block of a size. -/
def nextMapping (session : VfioSession) (size : Nat) : DmaMapping :=
  ⟨session.device.next, session.device.memory.nextPiece (wholePages size)⟩

/-- The session with the next block of a size handed out. -/
def withBlock (session : VfioSession) (size : Nat) : VfioSession where
  kernel := { session.kernel with
    journal := Journal.inUse (session.nextMapping size) ++ session.kernel.journal
    mappings := session.nextMapping size :: session.kernel.mappings }
  device := { session.device with
    next := session.device.next + wholePages size
    held := session.device.held ++ [session.nextMapping size]
    memory := session.device.memory.layOut (wholePages size) }

/-- The session with the addresses of the next block of a size taken, and nothing behind them. -/
def withoutMemory (session : VfioSession) (size : Nat) : VfioSession where
  kernel := session.kernel
  device := { session.device with next := session.device.next + wholePages size }

/-- The session when the kernel did not map the next block of a size. -/
def withoutBlock (session : VfioSession) (size : Nat) : VfioSession where
  kernel := { session.kernel with
    journal := [.freed (session.nextMapping size).piece,
      .called (.mapMemory (session.nextMapping size)) session.kernel.nextMapError,
      .laidOut (session.nextMapping size).piece] ++ session.kernel.journal }
  device := { session.device with
    next := session.device.next + wholePages size
    memory := (session.device.memory.layOut (wholePages size)).free (session.nextMapping size).piece }

/-- How handing out a block can end. Its addresses are gone even if there is no memory for it. -/
inductive Allocates (session : VfioSession) (size : Nat) : Outcome Block × VfioSession → Prop where
  | refused {failure : Failure}
      (refusal : size = 0 ∨ 2 ^ 64 ≤ session.device.next + wholePages size) :
      Allocates session size (.error failure, session)
  | unfit {failure : Failure} (room : session.device.next + wholePages size < 2 ^ 64)
      (large : VfioDevice.layoutLimit < wholePages size) :
      Allocates session size (.error failure, session.withoutMemory size)
  | lacked {failure : Failure} (room : session.device.next + wholePages size < 2 ^ 64)
      (short : session.kernel.nextLacksMemory) :
      Allocates session size (.error failure, { session.withoutMemory size with
        kernel := session.kernel.record (.lacked (wholePages size)) })
  | unmapped {failure : Failure} (positive : 0 < size)
      (room : session.device.next + wholePages size < 2 ^ 64)
      (failed : session.kernel.nextMapError ≠ 0) :
      Allocates session size (.error failure, session.withoutBlock size)
  | block (positive : 0 < size) (room : session.device.next + wholePages size < 2 ^ 64) :
      Allocates session size (.ok ⟨session.device.next, wholePages size⟩, session.withBlock size)

/-- How laying out host memory can end. -/
inductive LaysOut (span : Nat) (session : VfioSession) : Outcome HostPiece × VfioSession → Prop where
  | unfit (large : VfioDevice.layoutLimit < span) :
      LaysOut span session (.error (.error (.invalidArgument .blockLayout)), session)
  | lacked (short : session.kernel.nextLacksMemory) :
      LaysOut span session (.error (.error (.internal .outOfMemory)),
        { session with kernel := session.kernel.record (.lacked span) })
  | laidOut (fits : span ≤ VfioDevice.layoutLimit) (enough : session.kernel.nextLacksMemory = false) :
      LaysOut span session (.ok (session.device.memory.nextPiece span),
        { kernel := session.kernel.record (.laidOut (session.device.memory.nextPiece span))
          device := { session.device with memory := session.device.memory.layOut span } })

theorem layOut_cases (span : Nat) (session : VfioSession) :
    session.LaysOut span (layOut span session) := by
  unfold layOut
  dsimp only
  by_cases large : VfioDevice.layoutLimit < span
  · rw [if_pos large]
    exact .unfit large
  · rw [if_neg large]
    simp only [Action.bind_apply, Action.get_apply]
    by_cases short : session.kernel.nextLacksMemory
    · rw [if_pos short]
      exact .lacked short
    · rw [if_neg short]
      exact .laidOut (Nat.le_of_not_lt large) (Bool.eq_false_iff.2 short)

theorem reserve_cases (span : Nat) (session : VfioSession) :
    (2 ^ 64 ≤ session.device.next + span ∧
      ∃ cause, reserve span session = (.error (.error cause), session)) ∨
    session.device.next + span < 2 ^ 64 ∧ reserve span session = (.ok session.device.next,
      { session with device := { session.device with next := session.device.next + span } }) := by
  unfold reserve
  simp only [Action.bind_apply, Action.get_apply]
  by_cases full : 0x10000000000000000 ≤ session.device.next + span
  · rw [if_pos full]
    exact .inl ⟨full, _, rfl⟩
  · rw [if_neg full]
    exact .inr ⟨Nat.lt_of_not_le full, rfl⟩

/-- Where a range of addresses was taken, a block is handed out if its memory is laid out and mapped. -/
theorem allocates_of_reserve {session : VfioSession} {size : Nat} (positive : 0 < size)
    (room : session.device.next + wholePages size < 2 ^ 64) :
    session.Allocates size
      ((do
        let mapping ← pin session.device.next (wholePages size)
        Action.modify fun session =>
          { session with device := { session.device with held := session.device.held ++ [mapping] } }
        return ⟨session.device.next, wholePages size⟩ : Action VfioSession Block)
        (session.withoutMemory size)) := by
  simp only [pin, Action.bind_apply]
  have laid := (session.withoutMemory size).layOut_cases (wholePages size)
  generalize layOut (wholePages size) (session.withoutMemory size) = finished at laid ⊢
  cases laid with
  | unfit large => exact .unfit room large
  | lacked short => exact .lacked room short
  | laidOut fits enough =>
      rcases Kernel.mapMemory_cases (session.nextMapping size)
        (session.kernel.record (.laidOut (session.nextMapping size).piece)) with
        ⟨-, mapped⟩ | ⟨failed, cause, refused⟩
      · simp only [Action.undoOnError, onKernel, Action.focus, withoutMemory]
        simp only [nextMapping] at mapped
        rw [mapped]
        exact .block positive room
      · simp only [Action.undoOnError, onKernel, Action.focus, withoutMemory]
        simp only [nextMapping] at refused
        rw [refused]
        exact .unmapped positive room failed

theorem allocate_cases (session : VfioSession) (size : Nat) :
    session.Allocates size (allocate size session) := by
  unfold allocate
  dsimp only
  by_cases empty : size = 0
  · rw [if_pos empty]
    exact .refused (.inl empty)
  · rw [if_neg empty]
    have positive := Nat.pos_of_ne_zero empty
    cases spans : pageSpan size with
    | error cause =>
        refine .refused (.inr (Nat.le_of_not_lt fun room => ?_))
        have fits : wholePages size < Word.size 64 := Nat.lt_of_le_of_lt (Nat.le_add_left ..) room
        rw [pageSpan_eq_ok.2 ⟨fits, rfl⟩] at spans
        contradiction
    | ok span =>
        obtain rfl := (pageSpan_eq_ok.1 spans).2
        change session.Allocates size ((reserve (wholePages size) >>= fun iova => _) session)
        rw [Action.bind_apply]
        rcases reserve_cases (wholePages size) session with ⟨full, cause, refused⟩ | ⟨room, reserved⟩
        · rw [refused]
          exact .refused (.inr full)
        · rw [reserved]
          exact allocates_of_reserve positive room

/-- A block of any size is handed out as long as there is an address for it, its memory can be laid out, the
host has the memory and the kernel maps it. -/
theorem allocate_granted (positive : 0 < size) (room : session.device.next + wholePages size < 2 ^ 64)
    (fits : wholePages size ≤ VfioDevice.layoutLimit) (enough : session.kernel.nextLacksMemory = false)
    (agreed : session.kernel.nextMapError = 0) :
    allocate size session =
      (.ok ⟨session.device.next, wholePages size⟩, session.withBlock size) := by
  have ended := session.allocate_cases size
  generalize allocate size session = finished at ended ⊢
  cases ended with
  | refused refusal => omega
  | unfit _ large => omega
  | lacked _ short => exact absurd short (by simp [enough])
  | unmapped _ _ failed => exact absurd agreed failed
  | block => rfl

/-- The blocks that stay in use when the one at an address is released. -/
def heldWithout (session : VfioSession) (iova : Nat) : List DmaMapping :=
  session.device.held.filter fun other => other.iova != iova

/-- How releasing a block can end: its memory is freed if the kernel unmaps it, and kept otherwise. -/
inductive Releases (session : VfioSession) (iova : Nat) : VfioSession → Prop where
  | nothing : Releases session iova session
  | freed {mapping : DmaMapping} (found : session.device.mapping? iova = some mapping) :
      Releases session iova
        { kernel := { session.kernel with
            journal := [.freed mapping.piece, .called (.unmapMemory mapping.iova mapping.size) 0] ++
              session.kernel.journal
            mappings := session.kernel.mappings.filter fun other =>
              other.iova != mapping.iova || other.size != mapping.size }
          device := { session.device with
            held := session.heldWithout iova
            memory := session.device.memory.free mapping.piece } }
  | leaked {mapping : DmaMapping} {error : Nat} (failed : error ≠ 0)
      (found : session.device.mapping? iova = some mapping) :
      Releases session iova
        { kernel := { session.kernel with
            journal := [.called (.unmapMemory mapping.iova mapping.size) error] ++
              session.kernel.journal }
          device := { session.device with
            held := session.heldWithout iova
            leaked := mapping :: session.device.leaked } }

theorem release_cases (session : VfioSession) (iova : Nat) :
    session.Releases iova (release iova session) := by
  unfold release
  cases found : session.device.mapping? iova with
  | none => exact .nothing
  | some mapping =>
      simp only [Kernel.unmapMemory]
      by_cases agreed : session.kernel.nextUnmapError = 0
      · rw [if_pos agreed, agreed]
        exact .freed found
      · rw [if_neg agreed]
        exact .leaked agreed found

/-- How writing into a block can end. Bytes that are accepted stay within the block. -/
inductive Writes (session : VfioSession) (iova offset : Nat) (data : List UInt8) :
    Outcome Unit × VfioSession → Prop where
  | refused {failure : Failure} : Writes session iova offset data (.error failure, session)
  | written {mapping : DmaMapping} (found : session.device.mapping? iova = some mapping)
      (fits : offset + data.length ≤ mapping.size) :
      Writes session iova offset data (.ok (), { session with
        device := { session.device with
          memory := session.device.memory.write (mapping.piece.address + offset) data } })

theorem write_cases (session : VfioSession) (iova offset : Nat) (data : List UInt8) :
    session.Writes iova offset data (write iova offset data session) := by
  simp only [write, Action.bind_apply, Action.get_apply]
  cases found : session.device.mapping? iova with
  | none => exact .refused
  | some mapping =>
      by_cases past : mapping.size < offset + data.length
      · simp only [if_pos past]
        exact .refused
      · simp only [if_neg past]
        exact .written found (Nat.le_of_not_lt past)

/-! ## What every operation keeps -/

/-- Whether the journal is kept and says what the kernel, the host and the device have. -/
structure Sound (session : VfioSession) : Prop where
  kept : Kept session.kernel.journal session.device.next session.device.memory.next
  aligned : pageSize ∣ session.device.next
  bounded : session.device.next < 2 ^ 64
  held : ∀ mapping ∈ session.device.held, InUse session.kernel.journal mapping
  distinct : (session.device.held.map DmaMapping.iova).Nodup
  mappings_eq : session.kernel.mappings = seen session.kernel.journal
  pieces_eq : session.device.memory.pieces = live session.kernel.journal

namespace Sound

theorem mem_of_mapping? {mapping : DmaMapping} {iova : Nat}
    (found : session.device.mapping? iova = some mapping) :
    mapping ∈ session.device.held ∧ mapping.iova = iova :=
  ⟨List.mem_of_find?_eq_some found, by simpa using List.find?_some found⟩

theorem separate_nextMapping (sound : Sound session) (size : Nat) {other : DmaMapping}
    (mem : other ∈ offered session.kernel.journal) :
    Journal.Separate (session.nextMapping size) other :=
  sound.kept.separate_of_above mem (Nat.le_refl _) (Nat.le_refl _)

theorem placed_nextMapping (sound : Sound session) (positive : 0 < size) :
    Placed (session.device.next + wholePages size)
      (session.device.memory.layOut (wholePages size)).next (session.nextMapping size) where
  aligned := sound.aligned
  positive := Nat.lt_of_lt_of_le positive (le_wholePages size)
  iova_le := Nat.le_refl _
  address_le := by
    rw [HostMemory.next_layOut]
    exact Nat.add_le_add_left (le_wholePages (wholePages size)) _

theorem aligned_next (sound : Sound session) (size : Nat) :
    pageSize ∣ session.device.next + wholePages size :=
  Nat.dvd_add sound.aligned (pageSize_dvd_wholePages size)

theorem held_append (sound : Sound session) {mapping : DmaMapping} {events : List HostEvent}
    (mem : mapping ∈ session.device.held) (own : ∀ event ∈ events, event.concerns mapping) :
    ∀ other ∈ session.heldWithout mapping.iova, InUse (events ++ session.kernel.journal) other := by
  intro other kept
  rcases List.mem_filter.1 kept with ⟨old, ne⟩
  have inUse := sound.held other old
  have apart : mapping ≠ other := fun same => by simp [same] at ne
  exact inUse.append (sound.kept.separate (sound.held mapping mem).offered inUse.offered apart) own

theorem allocated (sound : Sound session) (size : Nat) : Sound (allocate size session).2 := by
  have ended := session.allocate_cases size
  generalize allocate size session = finished at ended ⊢
  have next_le : session.device.next ≤ session.device.next + wholePages size := Nat.le_add_right _ _
  cases ended with
  | refused refusal => exact sound
  | unfit room large =>
      exact { sound with
        kept := sound.kept.mono next_le
        aligned := sound.aligned_next size
        bounded := room }
  | lacked room short =>
      exact {
        kept := (sound.kept.mono next_le).cons rfl
        aligned := sound.aligned_next size
        bounded := room
        held := fun mapping mem => (sound.held mapping mem).cons rfl
        distinct := sound.distinct
        mappings_eq := sound.mappings_eq
        pieces_eq := sound.pieces_eq }
  | unmapped positive room failed =>
      -- The whole life of the mapping falls into this step.
      have own : ∀ event ∈ [HostEvent.freed (session.nextMapping size).piece,
          .called (.mapMemory (session.nextMapping size)) session.kernel.nextMapError,
          .laidOut (session.nextMapping size).piece],
          event.concerns (session.nextMapping size) := by
        simp [HostEvent.concerns]
      constructor
      · exact sound.kept.offer own rfl (.refused failed) (sound.placed_nextMapping positive)
          (Nat.le_refl _) (Nat.le_refl _)
      · exact sound.aligned_next size
      · exact room
      · intro mapping mem
        have inUse := sound.held mapping mem
        exact inUse.append (sound.separate_nextMapping size inUse.offered) own
      · exact sound.distinct
      · exact sound.mappings_eq.trans (Journal.see_of_failed failed _).symm
      · exact congrArg (fun pieces => HostEvent.lay (.freed (session.nextMapping size).piece)
          ((session.nextMapping size).piece :: pieces)) sound.pieces_eq
  | block positive room =>
      have own : ∀ event ∈ Journal.inUse (session.nextMapping size),
          event.concerns (session.nextMapping size) := by
        simp [Journal.inUse, HostEvent.concerns]
      constructor
      · exact sound.kept.offer own rfl .used (sound.placed_nextMapping positive) (Nat.le_refl _)
          (Nat.le_refl _)
      · exact sound.aligned_next size
      · exact room
      · intro mapping mem
        rcases List.mem_append.1 mem with old | last
        · have inUse := sound.held mapping old
          exact inUse.append (sound.separate_nextMapping size inUse.offered) own
        · rw [List.mem_singleton.1 last]
          exact sound.kept.inUse (Nat.le_refl _) (Nat.le_refl _)
      · change ((session.device.held ++ [session.nextMapping size]).map DmaMapping.iova).Nodup
        rw [List.map_append]
        refine List.nodup_append.2 ⟨sound.distinct, by simp, ?_⟩
        simp only [List.mem_map, List.map_cons, List.map_nil, List.mem_singleton]
        rintro iova ⟨mapping, mem, rfl⟩ _ rfl
        exact (sound.separate_nextMapping size (sound.held mapping mem).offered).iova_ne.symm
      · exact congrArg (session.nextMapping size :: ·) sound.mappings_eq
      · exact congrArg ((session.nextMapping size).piece :: ·) sound.pieces_eq

theorem released (sound : Sound session) (iova : Nat) : Sound (release iova session) := by
  have ended := session.release_cases iova
  generalize release iova session = finished at ended ⊢
  have distinct : ((session.heldWithout iova).map DmaMapping.iova).Nodup :=
    sound.distinct.sublist (List.filter_sublist.map _)
  cases ended with
  | nothing => exact sound
  | @freed mapping found =>
      rcases mem_of_mapping? found with ⟨mem, rfl⟩
      have own : ∀ event ∈ [HostEvent.freed mapping.piece,
          .called (.unmapMemory mapping.iova mapping.size) 0], event.concerns mapping := by
        simp [HostEvent.concerns]
      exact {
        kept := sound.kept.retire (sound.held mapping mem) own rfl .released
        aligned := sound.aligned
        bounded := sound.bounded
        held := sound.held_append mem own
        distinct
        mappings_eq := congrArg (List.filter _) sound.mappings_eq
        pieces_eq := congrArg (List.filter _) sound.pieces_eq }
  | @leaked mapping error failed found =>
      rcases mem_of_mapping? found with ⟨mem, rfl⟩
      have own : ∀ event ∈ [HostEvent.called (.unmapMemory mapping.iova mapping.size) error],
          event.concerns mapping := by
        simp [HostEvent.concerns]
      exact {
        kept := sound.kept.retire (sound.held mapping mem) own rfl (.leaked failed)
        aligned := sound.aligned
        bounded := sound.bounded
        held := sound.held_append mem own
        distinct
        mappings_eq := sound.mappings_eq.trans (Journal.see_of_failed failed _).symm
        pieces_eq := sound.pieces_eq }

theorem written (sound : Sound session) (iova offset : Nat) (data : List UInt8) :
    Sound (write iova offset data session).2 := by
  have ended := session.write_cases iova offset data
  generalize write iova offset data session = finished at ended ⊢
  cases ended with
  | refused => exact sound
  | written found fits => exact { sound with }

theorem opened {address : String} {answers : KernelAnswers} {registers : SparseBytes}
    {device : VfioDevice} {kernel : Kernel}
    (up : VfioDevice.openAt address (.fresh answers registers) = (.ok device, kernel)) :
    Sound ⟨kernel, device⟩ := by
  rcases VfioDevice.memoryUntouched_of_openAt up with ⟨asides, unmapped⟩
  rcases Journal.empty_of_not_memory asides with ⟨-, nothing_seen, nothing_live⟩
  obtain rfl := VfioDevice.eq_of_openAt up
  have aligned : pageSize ∣ VfioDevice.firstAddress := by decide
  have bounded : VfioDevice.firstAddress < 2 ^ 64 := by decide
  exact {
    kept := .of_not_memory asides
    aligned
    bounded
    held := by simp
    distinct := .nil
    mappings_eq := unmapped.trans nothing_seen.symm
    pieces_eq := nothing_live.symm }

end Sound

/-! ## Sessions -/

/-- The sessions that an open device comes to, however its blocks are used. -/
inductive Reachable (answers : KernelAnswers) (registers : SparseBytes) : VfioSession → Prop where
  | opened {address : String} {device : VfioDevice} {kernel : Kernel}
      (up : VfioDevice.openAt address (.fresh answers registers) = (.ok device, kernel)) :
      Reachable answers registers ⟨kernel, device⟩
  | allocated {session : VfioSession} (size : Nat) (before : Reachable answers registers session) :
      Reachable answers registers (allocate size session).2
  | written {session : VfioSession} (iova offset : Nat) (data : List UInt8)
      (before : Reachable answers registers session) :
      Reachable answers registers (write iova offset data session).2
  | released {session : VfioSession} (iova : Nat) (before : Reachable answers registers session) :
      Reachable answers registers (release iova session)

variable {answers : KernelAnswers} {registers : SparseBytes}

theorem Reachable.sound (reached : Reachable answers registers session) : Sound session := by
  induction reached with
  | opened up => exact .opened up
  | allocated size _ ih => exact ih.allocated size
  | written iova offset data _ ih => exact ih.written iova offset data
  | released iova _ ih => exact ih.released iova

/-- Whether the kernel was asked for a mapping so that a block could be handed out, on the way to a session,
that is no larger. -/
def Requested (answers : KernelAnswers) (registers : SparseBytes) (session : VfioSession)
    (mapping : DmaMapping) : Prop :=
  ∃ before size, Reachable answers registers before ∧ size ≤ mapping.size ∧
    mapping ∉ offered before.kernel.journal ∧
    mapping ∈ offered (allocate size before).2.kernel.journal ∧
    (allocate size before).2.kernel.journal <:+ session.kernel.journal

theorem Requested.later {mapping : DmaMapping}
    (requested : Requested answers registers session mapping)
    (goes_on : session.kernel.journal <:+ after.kernel.journal) :
    Requested answers registers after mapping := by
  rcases requested with ⟨before, size, reached, large, new, offered, within⟩
  exact ⟨before, size, reached, large, new, offered, within.trans goes_on⟩

theorem journal_allocate (session : VfioSession) (size : Nat) :
    session.kernel.journal <:+ (allocate size session).2.kernel.journal ∧
      ∀ mapping ∈ offered (allocate size session).2.kernel.journal,
        mapping ∈ offered session.kernel.journal ∨ size ≤ mapping.size := by
  have ended := session.allocate_cases size
  generalize allocate size session = finished at ended ⊢
  have large : size ≤ (session.nextMapping size).size := le_wholePages size
  cases ended with
  | refused refusal | unfit room large => exact ⟨List.suffix_rfl, fun mapping mem => .inl mem⟩
  | lacked room short => exact ⟨List.suffix_cons .., fun mapping mem => .inl mem⟩
  | unmapped positive room failed | block positive room =>
      refine ⟨List.suffix_append .., ?_⟩
      intro mapping mem
      rcases List.mem_cons.1 mem with rfl | old
      · exact .inr large
      · exact .inl old

theorem offered_release (session : VfioSession) (iova : Nat) :
    session.kernel.journal <:+ (release iova session).kernel.journal ∧
      offered (release iova session).kernel.journal = offered session.kernel.journal := by
  have ended := session.release_cases iova
  generalize release iova session = finished at ended ⊢
  cases ended with
  | nothing => exact ⟨List.suffix_rfl, rfl⟩
  | freed found => exact ⟨List.suffix_append .., rfl⟩
  | leaked failed found => exact ⟨List.suffix_append .., rfl⟩

theorem kernel_write (session : VfioSession) (iova offset : Nat) (data : List UInt8) :
    (write iova offset data session).2.kernel = session.kernel := by
  have ended := session.write_cases iova offset data
  generalize write iova offset data session = finished at ended ⊢
  cases ended <;> rfl

theorem Reachable.requested (reached : Reachable answers registers session) :
    ∀ mapping ∈ offered session.kernel.journal, Requested answers registers session mapping := by
  induction reached with
  | opened up =>
      have nothing := Journal.empty_of_not_memory (VfioDevice.memoryUntouched_of_openAt up).asides
      simp [nothing.1]
  | @allocated session size before ih =>
      intro mapping mem
      rcases session.journal_allocate size with ⟨goes_on, large⟩
      by_cases old : mapping ∈ offered session.kernel.journal
      · exact (ih mapping old).later goes_on
      · exact ⟨session, size, before, (large mapping mem).resolve_left old, old, mem, List.suffix_rfl⟩
  | @written session iova offset data before ih =>
      have same := session.kernel_write iova offset data
      rw [same]
      exact fun mapping mem => (ih mapping mem).later (same ▸ List.suffix_rfl)
  | @released session iova before ih =>
      rcases session.offered_release iova with ⟨goes_on, same⟩
      rw [same]
      exact fun mapping mem => (ih mapping mem).later goes_on

/-- Whether bytes were written into a block and nowhere else. -/
structure StaysInside (session after : VfioSession) (iova offset : Nat) (data : List UInt8)
    (mapping : DmaMapping) : Prop where
  held : mapping ∈ session.device.held
  iova_eq : mapping.iova = iova
  /-- The memory of the block is in use, and the device sees it. -/
  backed : mapping.piece ∈ session.device.memory.pieces ∧ mapping ∈ session.kernel.mappings
  fits : offset + data.length ≤ mapping.size
  written : ∀ position (inside : position < data.length),
    after.device.memory.byte (mapping.piece.address + offset + position) = data[position]
  elsewhere : ∀ address, address < mapping.piece.address + offset ∨
    mapping.piece.address + offset + data.length ≤ address →
      after.device.memory.byte address = session.device.memory.byte address
  others : ∀ other, other ≠ iova → (after.device.region? other).map PinnedRegion.contents =
    (session.device.region? other).map PinnedRegion.contents

theorem Sound.backed (sound : Sound session) {mapping : DmaMapping}
    (mem : mapping ∈ session.device.held) :
    mapping.piece ∈ session.device.memory.pieces ∧ mapping ∈ session.kernel.mappings := by
  have about_eq := (sound.held mapping mem).about_eq
  rw [sound.pieces_eq, sound.mappings_eq, ← Journal.mem_live_about, ← Journal.mem_seen_about, about_eq]
  exact ⟨List.mem_cons_self, List.mem_cons_self⟩

/-- Bytes that stay within a block change no other block. -/
theorem Sound.contents_write (sound : Sound session) {mapping other : DmaMapping}
    (mem : mapping ∈ session.device.held) (other_mem : other ∈ session.device.held)
    (ne : mapping ≠ other) {offset : Nat} {data : List UInt8}
    (fits : offset + data.length ≤ mapping.size) :
    PinnedRegion.contents
        ⟨other, session.device.memory.write (mapping.piece.address + offset) data⟩ =
      PinnedRegion.contents ⟨other, session.device.memory⟩ := by
  have ordered := sound.kept.above_or_above (sound.held mapping mem).offered
    (sound.held other other_mem).offered ne
  refine List.map_congr_left fun position inside => HostMemory.byte_write_outside ?_
  have below : position < other.size := by
    simpa [PinnedRegion.size] using List.mem_range'_1.1 inside
  rcases ordered with ⟨-, address_le⟩ | ⟨-, address_le⟩ <;>
    dsimp only <;> omega

theorem Sound.staysInside (sound : Sound session) {iova offset : Nat} {data : List UInt8}
    (accepted : write iova offset data session = (.ok (), after)) :
    ∃ mapping, StaysInside session after iova offset data mapping := by
  have ended := session.write_cases iova offset data
  rw [accepted] at ended
  cases ended with
  | @written mapping found fits =>
      rcases mem_of_mapping? found with ⟨mem, iova_eq⟩
      refine ⟨mapping, mem, iova_eq, sound.backed mem, fits, ?_, ?_, ?_⟩
      · exact HostMemory.byte_write_inside
      · exact fun address => HostMemory.byte_write_outside
      · intro other ne
        change ((session.device.mapping? other).map _).map _ = _
        rw [VfioDevice.region?, Option.map_map, Option.map_map]
        refine Option.map_congr fun third found_third => ?_
        rcases mem_of_mapping? found_third with ⟨mem_third, rfl⟩
        have apart : mapping ≠ third := fun same => ne (same ▸ iova_eq)
        exact sound.contents_write mem mem_third apart fits

/-- However blocks of any sizes are handed out, written and released, whenever the host lacks memory, and
whatever the kernel refuses, the device sees nothing but memory that is in use. -/
theorem mapped_memory_is_safe (reached : Reachable answers registers session) :
    Safe session.kernel.journal ∧
    (session.kernel.mappings = seen session.kernel.journal ∧
      session.device.memory.pieces = live session.kernel.journal) ∧
    (∀ mapping ∈ offered session.kernel.journal, Requested answers registers session mapping) ∧
    (∀ size block after, allocate size session = (.ok block, after) →
      size ≤ block.size ∧ ∃ mapping ∈ after.kernel.mappings, block = ⟨mapping.iova, mapping.size⟩) ∧
    ∀ iova offset data after, write iova offset data session = (.ok (), after) →
      ∃ mapping, StaysInside session after iova offset data mapping := by
  have sound := reached.sound
  refine ⟨sound.kept.safe sound.bounded, ⟨sound.mappings_eq, sound.pieces_eq⟩, reached.requested, ?_, ?_⟩
  · intro size block after granted
    have ended := session.allocate_cases size
    rw [granted] at ended
    cases ended with
    | block positive room => exact ⟨le_wholePages size, _, List.mem_cons_self, rfl⟩
  · intro iova offset data after accepted
    exact sound.staysInside accepted

/-- A kernel that refuses to map the second block and to unmap the first one, on a host without memory for
the third. -/
def refusing : KernelAnswers :=
  { KernelAnswers.willing 0 with
    lacksMemory := [false, false, true], mapErrors := [0, 12], unmapErrors := [16] }

/-- Whether a device opens on such a kernel, and its session passes a test. -/
def opensWith (test : VfioSession → Bool) : Bool :=
  match VfioDevice.openAt "0000:6b:00.0" (.fresh refusing .zero) with
  | (.ok device, kernel) => test ⟨kernel, device⟩
  | (.error _, _) => false

theorem exists_open {test : VfioSession → Bool} (passed : opensWith test = true) :
    ∃ session, Reachable refusing .zero session ∧ test session = true := by
  unfold opensWith at passed
  rcases up : VfioDevice.openAt "0000:6b:00.0" (.fresh refusing .zero) with ⟨failure | device, kernel⟩
  · rw [up] at passed
    contradiction
  · rw [up] at passed
    exact ⟨_, .opened up, passed⟩

/-- Four blocks are requested, the last of 64 GiB, the first is written, and the first and the last are
released. -/
def afterFourRequests (session : VfioSession) : VfioSession :=
  let session := (allocate 100 session).2
  let session := (allocate 8 session).2
  let session := (allocate 5000 session).2
  let session := (allocate 0x1000000000 session).2
  let session := (write 0x10000000 0 [7] session).2
  release 0x10004000 (release 0x10000000 session)

/-- On such a kernel, the memory of the first block is kept, and the device still sees it; the host has 64 GiB
for the last block, but no two pages for the third. -/
theorem mapped_memory_is_safe_on_refusals :
    ∃ session, Reachable refusing .zero session ∧ Safe session.kernel.journal ∧
      .lacked 8192 ∈ session.kernel.journal ∧
      (offered session.kernel.journal).map DmaMapping.size = [0x1000000000, pageSize, pageSize] ∧
      session.kernel.mappings = [⟨0x10000000, ⟨pageSize, pageSize⟩⟩] ∧
      session.device.memory.pieces = [⟨pageSize, pageSize⟩] := by
  have passed : opensWith (fun session =>
      decide (.lacked 8192 ∈ (afterFourRequests session).kernel.journal) &&
        decide ((offered (afterFourRequests session).kernel.journal).map DmaMapping.size =
          [0x1000000000, pageSize, pageSize]) &&
        decide ((afterFourRequests session).kernel.mappings = [⟨0x10000000, ⟨pageSize, pageSize⟩⟩]) &&
        decide ((afterFourRequests session).device.memory.pieces = [⟨pageSize, pageSize⟩])) = true := by
    decide +kernel
  rcases exists_open passed with ⟨session, opened, result⟩
  simp only [Bool.and_eq_true, decide_eq_true_eq] at result
  rcases result with ⟨⟨⟨lacked, sizes⟩, mapped⟩, kept⟩
  have reached : Reachable refusing .zero (afterFourRequests session) := by
    unfold afterFourRequests
    exact .released _ (.released _ (.written _ _ _
      (.allocated _ (.allocated _ (.allocated _ (.allocated _ opened))))))
  exact ⟨_, reached, (mapped_memory_is_safe reached).1, lacked, sizes, mapped, kept⟩

end VfioSession

end RateTree
