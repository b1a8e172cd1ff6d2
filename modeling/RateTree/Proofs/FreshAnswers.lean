import RateTree.Proofs.BlockOwnership
import RateTree.Proofs.MailboxExchange
import RateTree.Proofs.RoundTrips
import RateTree.Proofs.UntrustedDevice

/-!
# Answers that are fresh

A request through the mailbox succeeds only if the device has answered it in its own message area. The area is
new to the device: it was never told of its address before the request, so that nothing it wrote earlier, or
writes in answer to an earlier request, gets there. The area holds zeros where the answer goes, and no command
is numbered zero.
-/

namespace RateTree

open DeviceEvent (polls written)

namespace Untrusted

/-! ## The registers of a device -/

/-- A message area that holds a request, of which the device has not been told yet. -/
structure Ready (device : Untrusted) (area : Block) (request : AdminRequest) : Prop where
  sound : device.Sound
  tracks : device.Tracks area [(0, request.encode)]
  untold : .told area.iova ∉ device.journal
  high_le : device.high.toNat * 0x100000000 ≤ area.iova
  room : area.iova < 2 ^ 64

/-- What is known of a device that was told of the area of a request: its registers name the area, and the
host has written nothing but the request there. -/
structure Posted (before device : Untrusted) (area : Block) (request : AdminRequest) : Prop where
  idles : Idles before device
  sound : device.Sound
  tracks : device.Tracks area [(0, request.encode)]
  told : .told area.iova ∈ device.journal
  named : device.named = area.iova

theorem Tracks.lt_nextAddress {device : Untrusted} {block : Block} {host : List (Nat × List UInt8)}
    (tracks : device.Tracks block host) : block.iova < device.pool.nextAddress := by
  apply Pool.lt_nextAddress
  have mem := List.mem_of_find?_eq_some tracks.found
  exact List.mem_map_of_mem mem

section Hearing

variable {device : Untrusted} {low high : UInt32}

theorem idles_hear (high_le : high.toNat * 0x100000000 ≤ device.pool.nextAddress)
    (named_lt : high.toNat * 0x100000000 + low.toNat < device.pool.nextAddress) :
    Idles device (hear { device with low, high }).act where
  journal := by
    have heard : device.journal <:+ (hear { device with low, high }).journal := List.suffix_cons ..
    exact heard.trans (quiet_act _).journal
  polls_eq := polls_act _
  limits_eq := (quiet_act _).limits_eq
  sound := by
    intro sound
    apply (quiet_act _).sound
    constructor
    · intro address told
      rcases List.mem_cons.1 told with same | old
      · cases same
        exact named_lt
      · exact sound.told_lt address old
    · intro write mem
      rcases List.mem_cons.1 mem with same | old
      · cases same
      · exact List.mem_cons_of_mem _ (sound.wrote_told write old)
    · exact high_le

theorem Tracks.hear {block : Block} {host : List (Nat × List UInt8)} (tracks : device.Tracks block host) :
    (Untrusted.hear { device with low, high }).act.Tracks block host :=
  (quiet_act _).tracks block host { tracks with }

end Hearing

/-- The device once both halves of an address were written and the doorbell rung. -/
def posted (device : Untrusted) (low high : UInt32) : Untrusted :=
  (hear { (hear { device with low }).act with high }).act.act

/-- Between the two halves the device is told of nothing above the area. -/
theorem Ready.posted {before : Untrusted} {area : Block} {request : AdminRequest} {low high : UInt32}
    (ready : before.Ready area request) (named : high.toNat * 0x100000000 + low.toNat = area.iova) :
    Posted before (before.posted low high) area request := by
  rcases ready with ⟨sound, tracks, -, high_le, room⟩
  have used := tracks.lt_nextAddress
  have low_lt := low.toNat_lt
  -- In between, the registers name the new low half behind the old high one, which is not above the area.
  have first : Idles before (hear { before with low }).act := by
    apply idles_hear
    · exact sound.high_le
    · omega
  have next_eq : (hear { before with low }).act.pool.nextAddress = before.pool.nextAddress :=
    (quiet_act _).next_eq
  have low_eq : (hear { before with low }).act.low = low := (quiet_act _).low_eq
  have tracks_first : (hear { before with low }).act.Tracks area [(0, request.encode)] :=
    Tracks.hear tracks
  rw [Untrusted.posted]
  generalize (hear { before with low }).act = between at *
  have second : Idles between (hear { between with high }).act := by
    have high_part : high.toNat * 0x100000000 ≤ area.iova := named ▸ Nat.le_add_right _ _
    apply idles_hear
    · rw [next_eq]
      exact Nat.le_of_lt (Nat.lt_of_le_of_lt high_part used)
    · rw [low_eq, named, next_eq]
      exact used
  have idles := first.trans (second.trans (idles_act (Nat.le_refl _)))
  have at_area : Untrusted.named { between with high } = area.iova := by
    rw [Untrusted.named, low_eq, named]
  have quiet : Quiet (hear { between with high }) (hear { between with high }).act.act :=
    (quiet_act _).trans (quiet_act _)
  refine ⟨idles, idles.sound sound, ?_, ?_, quiet.named_eq.trans at_area⟩
  · exact (quiet_act _).tracks _ _ (Tracks.hear tracks_first)
  · rw [quiet.told_iff, ← at_area]
    exact List.mem_cons_self

theorem Ready.post {before : Untrusted} {area : Block} {request : AdminRequest}
    (ready : before.Ready area request) :
    ∃ after, Mailbox.post area.iova before = (.ok (), after) ∧ Posted before after area request := by
  have room := ready.room
  refine ⟨_, rfl, ready.posted ?_⟩
  simp only [Nat.toUInt32, UInt32.toNat_ofNat']
  omega

/-- How waiting for the doorbell can end. -/
inductive Awaits (before : Untrusted) (maxPolls : Nat) : Outcome Bool × Untrusted → Prop where
  | never {after : Untrusted} (quiet : Quiet before after) : Awaits before maxPolls (.ok false, after)
  | clear {after : Untrusted} {refused : List UInt32} (quiet : Quiet before after)
      (polled : polls after.journal = 0 :: (refused ++ polls before.journal))
      (set : ∀ value ∈ refused, value ≠ 0) (in_time : refused.length < maxPolls) :
      Awaits before maxPolls (.ok true, after)

theorem readDoorbell_apply (device : Untrusted) :
    readRegister Mailbox.doorbell device = (.ok device.move.answer,
      act { device with journal := .polled device.move.answer :: device.journal }) := rfl

theorem quiet_polled (device : Untrusted) (value : UInt32) :
    Quiet device { device with journal := .polled value :: device.journal } where
  journal := List.suffix_cons ..
  told_iff := by simp
  wrote_told := by
    intro write mem
    exact .inl (by simpa using mem)
  low_eq := rfl
  high_eq := rfl
  limits_eq := rfl
  next_eq := rfl
  tracks _ _ tracks := { tracks with }

theorem awaitClear_cases (maxPolls : Nat) (device : Untrusted) :
    device.Awaits maxPolls (Mailbox.awaitClear maxPolls device) := by
  induction maxPolls generalizing device with
  | zero => exact .never (.refl device)
  | succ maxPolls ih =>
      rw [Mailbox.awaitClear, readDoorbell_apply]
      generalize device.move.answer = answer
      have quiet := (quiet_polled device answer).trans (quiet_act _)
      have polled := polls_act { device with journal := .polled answer :: device.journal }
      generalize act { device with journal := .polled answer :: device.journal } = between at quiet polled ⊢
      dsimp only
      by_cases clear : answer = 0
      · rw [if_pos clear]
        have polled_once : polls between.journal = 0 :: ([] ++ polls device.journal) := by
          rw [polled, clear]
          rfl
        have nothing : ∀ value ∈ ([] : List UInt32), value ≠ 0 := by simp
        exact .clear quiet polled_once nothing (Nat.succ_pos _)
      · rw [if_neg clear]
        have later := ih between
        generalize Mailbox.awaitClear maxPolls between = finished at later ⊢
        cases later with
        | never rest => exact .never (quiet.trans rest)
        | @clear after refused rest polled_rest set in_time =>
            -- The newest come first, so that the read just made goes behind those that follow it.
            have polled_both : polls after.journal =
                0 :: ((refused ++ [answer]) ++ polls device.journal) := by
              rw [polled_rest, polled, List.append_assoc]
              rfl
            have set_both : ∀ value ∈ refused ++ [answer], value ≠ 0 := by
              intro value mem
              rcases List.mem_append.1 mem with earlier | last
              · exact set value earlier
              · rwa [List.mem_singleton.1 last]
            exact .clear (quiet.trans rest) polled_both set_both (by simpa using in_time)

/-! ## Exchanges -/

/-- Whether a message area served for a request: the device was told of it only then, and it was read right
after the doorbell had been found clear, within a number of reads. -/
structure Collects (maxPolls : Nat) (before reading after : Untrusted) (area : Block) : Prop where
  /-- The area is read in the course of the request, and the doorbell not after that. -/
  begun : before.journal <:+ reading.journal
  ended : reading.journal <:+ after.journal
  polled_last : polls after.journal = polls reading.journal
  /-- The doorbell was found clear, after it had been found set. -/
  polled : ∃ refused, polls reading.journal = 0 :: (refused ++ polls before.journal) ∧
    (∀ value ∈ refused, value ≠ 0) ∧ refused.length < maxPolls
  /-- The device is told of the area only now, and its registers name it. -/
  untold : .told area.iova ∉ before.journal
  told : .told area.iova ∈ reading.journal
  named : reading.named = area.iova

/-- Other uses of the memory before and after a request do not change how its area served. -/
theorem Collects.widen {maxPolls limit : Nat} {start before reading after finish : Untrusted} {area : Block}
    (collects : Collects maxPolls before reading after area) (first : Idles start before)
    (last : Idles after finish) (within : maxPolls ≤ limit) :
    Collects limit start reading finish area := by
  rcases collects.polled with ⟨refused, polled, set, in_time⟩
  exact { collects with
    begun := first.journal.trans collects.begun
    ended := collects.ended.trans last.journal
    polled_last := last.polls_eq.trans collects.polled_last
    polled := ⟨refused, first.polls_eq ▸ polled, set, Nat.lt_of_lt_of_le in_time within⟩
    untold := fun told => collects.untold (first.journal.subset told) }

/-- How an exchange can end: with a response only if that is what was read off its area, in which nobody but
the device has written behind the request. -/
inductive Exchanges (maxPolls : Nat) (before : Untrusted) (request : AdminRequest) :
    Outcome AdminResponse × Untrusted → Prop where
  | failed {failure : Failure} {after : Untrusted} (sound : after.Sound) :
      Exchanges maxPolls before request (.error failure, after)
  | answered {response : AdminResponse} {reading after : Untrusted} {area : Block} (sound : after.Sound)
      (collects : Collects maxPolls before reading after area)
      (tracks : reading.Tracks area [(0, request.encode)])
      (response_eq :
        Mailbox.responseIn request.command (BlockMemory.contents area reading) = .ok response) :
      Exchanges maxPolls before request (.ok response, after)

theorem Ready.converse {before : Untrusted} {area : Block} {request : AdminRequest}
    (ready : before.Ready area request) (limits : PollLimits) :
    Exchanges limits.maxPolls before request (Mailbox.converse limits request area before) := by
  rcases ready.post with ⟨posted, post_eq, idles, sound, tracks, told, named⟩
  rw [Mailbox.converse, Action.bind_apply, post_eq]
  dsimp only
  rw [Action.bind_apply]
  have awaits := awaitClear_cases limits.maxPolls posted
  generalize Mailbox.awaitClear limits.maxPolls posted = waited at awaits ⊢
  cases awaits with
  | never quiet => exact .failed (quiet.sound sound)
  | @clear reading refused quiet polled set in_time =>
      rw [idles.polls_eq] at polled
      have collects : Collects limits.maxPolls before reading reading area := {
        begun := idles.journal.trans quiet.journal
        ended := List.suffix_rfl
        polled_last := rfl
        polled := ⟨refused, polled, set, in_time⟩
        untold := ready.untold
        told := (quiet.told_iff _).2 told
        named := quiet.named_eq.trans named }
      change Exchanges limits.maxPolls before request
        (liftM (Mailbox.responseIn request.command (BlockMemory.contents area reading)), reading)
      cases read : Mailbox.responseIn request.command (BlockMemory.contents area reading) with
      | error cause => exact .failed (quiet.sound sound)
      | ok response => exact .answered (quiet.sound sound) collects (quiet.tracks _ _ tracks) read

theorem Exchanges.within {maxPolls limit : Nat} {start before : Untrusted} {request : AdminRequest}
    {finished : Outcome AdminResponse × Untrusted} {last : Untrusted}
    (exchanges : Exchanges maxPolls before request finished) (first : Idles start before)
    (idles : Idles finished.2 last) (le : maxPolls ≤ limit) :
    Exchanges limit start request (finished.1, last) := by
  cases exchanges with
  | failed sound => exact .failed (idles.sound sound)
  | answered sound collects tracks response_eq =>
      exact .answered (idles.sound sound) (collects.widen first idles le) tracks response_eq

theorem ready_of_fill {device ready : Untrusted} {granted : Nat} (positive : 0 < granted)
    (sound : device.Sound) (room : device.pool.nextAddress < 2 ^ 64) {request : AdminRequest}
    (filled : BlockMemory.fill ⟨device.pool.nextAddress, granted⟩ request.encode
      (act { device with pool := device.pool.push granted positive }) = (.ok (), ready)) :
    ready.Ready ⟨device.pool.nextAddress, granted⟩ request := by
  have lent : Idles device (act { device with pool := device.pool.push granted positive }) :=
    idles_act (le_nextAddress_push positive)
  have untold := not_told_push positive sound
  have tracks := tracks_push positive sound
  have high_eq : (act { device with pool := device.pool.push granted positive }).high = device.high :=
    (quiet_act _).high_eq
  generalize act { device with pool := device.pool.push granted positive } = between at *
  have idles := idles_fill ⟨device.pool.nextAddress, granted⟩ request.encode between
  have told_iff := told_fill_iff ⟨device.pool.nextAddress, granted⟩ request.encode between
  have high_fill := high_fill ⟨device.pool.nextAddress, granted⟩ request.encode between
  rw [filled] at idles told_iff high_fill
  exact {
    sound := idles.sound (lent.sound sound)
    tracks := tracks_fill (lent.sound sound) untold tracks filled
    untold := fun told => untold ((told_iff _).1 told)
    high_le := by
      rw [high_fill, high_eq]
      exact sound.high_le
    room }

theorem exchange_cases {before : Untrusted} (sound : before.Sound) (request : AdminRequest) :
    Exchanges before.limits.maxPolls before request (AdminTransport.exchange request before) := by
  have within : min before.limits.maxPolls before.move.patience ≤ before.limits.maxPolls :=
    Nat.min_le_left _ _
  simp only [AdminTransport.exchange]
  generalize min before.limits.maxPolls before.move.patience = maxPolls at within ⊢
  rw [Mailbox.exchange_eq_converse, withBlock]
  have hands := before.allocate_cases .message Mailbox.areaSize
  generalize BlockMemory.allocate .message Mailbox.areaSize before = allocated at hands ⊢
  cases hands with
  | refused idles => exact .failed (idles.sound sound)
  | @block granted positive room =>
      have lent : Idles before (act { before with pool := before.pool.push granted positive }) :=
        idles_act (le_nextAddress_push positive)
      dsimp only
      rw [Action.bind_apply]
      have idles := idles_fill ⟨before.pool.nextAddress, granted⟩ request.encode
        (act { before with pool := before.pool.push granted positive })
      rcases filled : BlockMemory.fill ⟨before.pool.nextAddress, granted⟩ request.encode
        (act { before with pool := before.pool.push granted positive }) with
        ⟨failure | ⟨⟩, ready⟩ <;> rw [filled] at idles
      · exact .failed ((idles_release _ _).sound (idles.sound (lent.sound sound)))
      · have is_ready := ready_of_fill positive sound room filled
        exact (is_ready.converse { before.limits with maxPolls }).within (lent.trans idles)
          (idles_release _ _) within

/-! ## What the area holds -/

/-- Whether a request was answered: in an area that is new to the device, after the doorbell was found clear
within the limit, and by bytes that the device wrote there. -/
structure Answered (command : AdminCommand) (before reading after : Untrusted) (area : Block) : Prop
    extends Collects before.limits.maxPolls before reading after area where
  /-- Behind the request stands a response to the command, with a status of zero. -/
  whole : Mailbox.areaSize ≤ (BlockMemory.contents area reading).length
  command_held : (BlockMemory.contents area reading)[messageLength + 1]? = some command.id
  status_held : (BlockMemory.contents area reading)[messageLength + 2]? = some 0
  /-- The device has written it there, since the request was begun. -/
  written : ∃ write, .wrote write ∈ reading.journal ∧ .wrote write ∉ before.journal ∧
    write.address = area.iova ∧ write.offset ≤ messageLength + 1 ∧
    write.bytes[messageLength + 1 - write.offset]? = some command.id

end Untrusted

/-- A byte in a block that is not zero was written there. -/
theorem PoolBlock.exists_write {iova size : Nat} {writes : List (Nat × List UInt8)}
    (fits : ∀ entry ∈ writes, entry.1 + entry.2.length ≤ size) :
    (PoolBlock.contents ⟨iova, size, writes⟩).length = size ∧
      ∀ position byte, (PoolBlock.contents ⟨iova, size, writes⟩)[position]? = some byte → byte ≠ 0 →
        ∃ entry ∈ writes, entry.1 ≤ position ∧ entry.2[position - entry.1]? = some byte := by
  induction writes with
  | nil =>
      refine ⟨Bytes.length_zeros size, ?_⟩
      intro position byte held nonzero
      have zero := List.eq_of_mem_replicate (List.mem_of_getElem? held)
      exact absurd zero nonzero
  | cons entry rest ih =>
      rcases List.forall_mem_cons.1 fits with ⟨first, others⟩
      rcases ih others with ⟨length_eq, older⟩
      change (overwrite (PoolBlock.contents ⟨iova, size, rest⟩) entry.1 entry.2).length = size ∧
        ∀ position byte, (overwrite (PoolBlock.contents ⟨iova, size, rest⟩) entry.1 entry.2)[position]? =
          some byte → byte ≠ 0 → _
      rw [← length_eq] at first
      refine ⟨(length_overwrite first).trans length_eq, ?_⟩
      intro position byte held nonzero
      rw [getElem?_overwrite first] at held
      split at held
      · next inside => exact ⟨entry, List.mem_cons_self, inside.1, held⟩
      · rcases older position byte held nonzero with ⟨source, mem, below, written⟩
        exact ⟨source, List.mem_cons_of_mem _ mem, below, written⟩

namespace DeviceEvent

theorem exists_wrote_of_mem_written {address : Nat} {journal : List DeviceEvent}
    {entry : Nat × List UInt8} (mem : entry ∈ written address journal) :
    ∃ write, .wrote write ∈ journal ∧ write.address = address ∧ entry = (write.offset, write.bytes) := by
  rcases List.mem_filterMap.1 mem with ⟨event, event_mem, into⟩
  cases event with
  | told | polled => cases into
  | wrote write =>
      simp only [into?] at into
      split at into
      · next here =>
        cases into
        exact ⟨write, event_mem, here, rfl⟩
      · cases into

end DeviceEvent

/-- A response is read off the second half of a message area. -/
theorem Mailbox.responseIn_eq_ok {command : AdminCommand} {area : List UInt8} {response : AdminResponse}
    (read : responseIn command area = .ok response) :
    areaSize ≤ area.length ∧ area[messageLength + 1]? = some response.commandId ∧
      area[messageLength + 2]? = some response.status := by
  simp only [responseIn, AdminResponse.decode] at read
  split at read
  · contradiction
  · next whole =>
    have long := Nat.le_of_not_lt whole
    have room : ((area.drop messageLength).take messageLength).length = messageLength := by
      simp only [List.length_take, List.length_drop, areaSize] at long ⊢
      omega
    have field (position : Nat) (inside : position < messageLength) : area[messageLength + position]? =
        some (Bytes.field ((area.drop messageLength).take messageLength) position 1).toUInt8 := by
      rw [Bytes.toUInt8_field_eq (by omega), List.getElem_take, List.getElem_drop]
      exact List.getElem?_eq_getElem _
    split at read
    · contradiction
    · cases read
      exact ⟨long, field 1 (by decide), field 2 (by decide)⟩

theorem AdminCommand.id_ne_zero (command : AdminCommand) : command.id ≠ 0 := by
  cases command <;> decide

namespace Untrusted

/-- No command is numbered zero, so that the number of the command was written by someone. -/
theorem Collects.answered {before reading after : Untrusted} {area : Block} {request : AdminRequest}
    (sound : before.Sound) (collects : Collects before.limits.maxPolls before reading after area)
    (tracks : reading.Tracks area [(0, request.encode)])
    (response_eq : Mailbox.responseIn request.command (BlockMemory.contents area reading) =
      .ok (.ok request.command)) :
    Answered request.command before reading after area := by
  rcases Mailbox.responseIn_eq_ok response_eq with ⟨whole, command_held, status_held⟩
  suffices written : _ from { collects with whole, command_held, status_held, written }
  have held := command_held
  simp only [BlockMemory.contents, Pool.read, tracks.found, Option.map_some, Option.getD_some] at held
  rcases (PoolBlock.exists_write tracks.fits).2 _ _ held request.command.id_ne_zero with
    ⟨entry, mem, below, byte⟩
  rcases List.mem_append.1 mem with by_device | by_host
  · rcases DeviceEvent.exists_wrote_of_mem_written by_device with ⟨write, logged, here, rfl⟩
    refine ⟨write, logged, ?_, here, below, byte⟩
    intro old
    exact collects.untold (here ▸ sound.wrote_told write old)
  · -- The host has written the request only, which ends before the response.
    rw [List.mem_singleton.1 by_host] at byte
    have past : request.encode.length ≤ messageLength + 1 - 0 := by
      rw [request.length_encode]
      exact Nat.le_succ _
    rw [List.getElem?_eq_none past] at byte
    cases byte

/-! ## Calls -/

theorem Answered.widen {command : AdminCommand} {start before reading after finish : Untrusted}
    {area : Block} (answered : Answered command before reading after area)
    (first : Idles start before) (last : Idles after finish) :
    Answered command start reading finish area := by
  have same : before.limits.maxPolls = start.limits.maxPolls := congrArg PollLimits.maxPolls first.limits_eq
  have collects := answered.toCollects.widen first last (Nat.le_of_eq same)
  rcases answered.written with ⟨write, logged, new, rest⟩
  exact { collects, answered with
    written := ⟨write, logged, fun old => new (first.journal.subset old), rest⟩ }

/-- How a call over the channel can end: it fails, or the device has answered it in an area of its own. -/
inductive Performs (command : AdminCommand) (before : Untrusted) : Outcome Unit × Untrusted → Prop where
  | failed {failure : Failure} {after : Untrusted} (sound : after.Sound) :
      Performs command before (.error failure, after)
  | done {reading after : Untrusted} {area : Block} (sound : after.Sound)
      (answered : Answered command before reading after area) :
      Performs command before (.ok (), after)

theorem roundTrip_cases {before : Untrusted} (sound : before.Sound) (request : AdminRequest) :
    before.Performs request.command (AdminChannel.roundTrip request before) := by
  have exchanges := exchange_cases sound request
  rw [AdminChannel.roundTrip, Action.bind_apply, Action.mapError]
  generalize AdminTransport.exchange request before = exchanged at exchanges ⊢
  cases exchanges with
  | @failed failure after still => cases failure <;> exact .failed still
  | @answered response reading after area still collects tracks response_eq =>
      dsimp only
      by_cases foreign : response.commandId ≠ request.command.id
      · rw [if_pos foreign]
        exact .failed still
      · rw [if_neg foreign]
        by_cases bad : response.status ≠ 0
        · rw [if_pos bad]
          exact .failed still
        · rw [if_neg bad]
          obtain rfl : response = .ok request.command := by
            cases response
            simp_all [AdminResponse.ok]
          exact .done still (collects.answered sound tracks response_eq)

theorem Performs.within {command : AdminCommand} {start before : Untrusted}
    {finished : Outcome Unit × Untrusted} {last : Untrusted} (performs : Performs command before finished)
    (first : Idles start before) (idles : Idles finished.2 last) :
    Performs command start (finished.1, last) := by
  cases performs with
  | failed sound => exact .failed (idles.sound sound)
  | done sound answered => exact .done (idles.sound sound) (answered.widen first idles)

theorem sendIn_cases {before : Untrusted} (sound : before.Sound) (command : AdminCommand) (kind : NodeKind)
    (node : NodeId) (service : Service) (parameters : SlaParameters) (block : Block) :
    before.Performs command (AdminChannel.sendIn command kind node service parameters block before) := by
  rw [AdminChannel.sendIn]
  dsimp only
  by_cases kept : command ≠ .delete
  · rw [if_pos kept, Action.bind_apply]
    have idles := idles_fill block parameters.encode before
    rcases filled : BlockMemory.fill block parameters.encode before with ⟨failure | ⟨⟩, between⟩ <;>
      rw [filled] at idles
    · exact .failed (idles.sound sound)
    · exact (roundTrip_cases (idles.sound sound) (AdminChannel.slaRequest command kind node service
        parameters.rings.length block.iova)).within idles (idles_refl _)
  · rw [if_neg kept]
    exact roundTrip_cases sound (AdminChannel.slaRequest command kind node service
      parameters.rings.length block.iova)

theorem sendSla_cases {before : Untrusted} (sound : before.Sound) (command : AdminCommand) (node : NodeId)
    (service : Service) (tokens : Tokens) (rings : List Nat) :
    before.Performs command (AdminChannel.sendSla command node service tokens rings before) := by
  rcases AdminChannel.sendSla_cases (σ := Untrusted) command node service tokens rings with
    ⟨cause, refused⟩ | ⟨kind, ids, -, -, -, lending⟩
  · rw [refused]
    exact .failed sound
  · rw [lending, withBlock]
    have hands := before.allocate_cases .parameters parameterBlockSize
    generalize BlockMemory.allocate .parameters parameterBlockSize before = allocated at hands ⊢
    cases hands with
    | refused idles => exact .failed (idles.sound sound)
    | @block granted positive room =>
        have lent : Idles before (act { before with pool := before.pool.push granted positive }) :=
          idles_act (le_nextAddress_push positive)
        exact (sendIn_cases (lent.sound sound) command kind node service ⟨tokens, ids⟩ _).within lent
          (idles_release _ _)

end Untrusted

namespace ChannelCall

/-- The command that a call sends. -/
def command : ChannelCall → AdminCommand
  | .init => .init
  | .sla command _ _ _ _ => command

/-- The device once calls were made on it, one after the other and however they ended. -/
def performAll (calls : List ChannelCall) (device : Untrusted) : Untrusted :=
  calls.foldl (fun device call => (call.perform device).2) device

variable {device : Untrusted}

theorem performs (sound : device.Sound) (call : ChannelCall) :
    device.Performs call.command (call.perform device) := by
  cases call with
  | init => exact Untrusted.roundTrip_cases sound (.bare .init)
  | sla command node service tokens rings => exact Untrusted.sendSla_cases sound _ _ _ _ _

theorem sound_performAll (sound : device.Sound) (calls : List ChannelCall) :
    (performAll calls device).Sound := by
  induction calls generalizing device with
  | nil => exact sound
  | cons call rest ih =>
      apply ih
      change (call.perform device).2.Sound
      have ended := call.performs sound
      generalize call.perform device = finished at ended ⊢
      cases ended with
      | failed still => exact still
      | done still answered => exact still

end ChannelCall

namespace Untrusted

theorem sound_fresh (limits : PollLimits) (behaviour : Nat → DeviceMove) :
    (fresh limits behaviour).Sound := by
  constructor <;> simp [fresh]

open ChannelCall (performAll)

/-- Whatever a device does, and whatever became of the requests before, a request that succeeds was answered
by the device, in an area of its own and since it was posted. -/
theorem successes_are_never_stale (limits : PollLimits) (behaviour : Nat → DeviceMove)
    (calls : List ChannelCall) (call : ChannelCall) (after : Untrusted)
    (succeeded : call.perform (performAll calls (fresh limits behaviour)) = (.ok (), after)) :
    ∃ reading area,
      Answered call.command (performAll calls (fresh limits behaviour)) reading after area := by
  have sound := ChannelCall.sound_performAll (sound_fresh limits behaviour) calls
  have ended := call.performs sound
  rw [succeeded] at ended
  cases ended with
  | done still answered => exact ⟨_, _, answered⟩

/-- A device that answers its first request only while the second one is posted, and the second one after
that. -/
def belated (moment : Nat) : DeviceMove where
  answer := if moment = 13 then 0 else 1
  granted := 64
  patience := 100
  writes :=
    if moment = 10 then [⟨0x100000000, 32, [0, AdminCommand.init.id, 0]⟩]
    else if moment = 12 then [⟨0x100001000, 32, [0, AdminCommand.init.id, 0]⟩]
    else []

/-- The first request has timed out. -/
theorem successes_are_never_stale_after_timeout :
    let start := fresh ⟨2, 64, 100⟩ belated
    (ChannelCall.init.perform start).1 ≠ .ok () ∧
      ∃ reading after area, ChannelCall.init.perform (performAll [.init] start) = (.ok (), after) ∧
        Answered .init (performAll [.init] start) reading after area := by
  intro start
  have succeeded : (ChannelCall.init.perform (performAll [.init] start)).1 = .ok () := by
    decide +kernel
  have ended : ChannelCall.init.perform (performAll [.init] start) = (.ok (), _) := Prod.ext succeeded rfl
  rcases successes_are_never_stale ⟨2, 64, 100⟩ belated [.init] .init _ ended with
    ⟨reading, area, answered⟩
  exact ⟨by decide +kernel, reading, _, area, ended, answered⟩

end Untrusted

end RateTree
