import RateTree.Proofs.BenchDevice
import RateTree.Proofs.Links

/-!
# A bench within direct reach

When the firmware of a bench is reached directly and whatever befalls a request keeps it from being
carried out, sending a command on an agreement either carries the command out or fails and leaves the
entries of the firmware alone, and the parameters arrive as they were written. Links that are set or
cleared do not touch the firmware.
-/

namespace RateTree

/-- Whether a response does not say that a request was carried out. -/
def AdminResponse.Denies (response : AdminResponse) (request : AdminRequest) : Prop :=
  response.commandId ≠ request.command.id ∨ response.status ≠ 0

/-- Whether a request that meets a fault is not carried out, and fails. -/
def LinkFault.Withholds : LinkFault → Prop
  | .linkDown | .timeout | .busReset | .deviceMissing => True
  | .responseLost => False
  | .status code => code ≠ 0
  | .foreign response => ∀ request, response.Denies request

open Firmware (Reprogrammed)

namespace Bench

/-- Whether the firmware of a bench is within direct reach and nothing befalls its requests. -/
structure Direct (bench : Bench) : Prop where
  carrier_eq : bench.carrier = .direct
  faults_eq : bench.faults = []
  limit_eq : bench.parameterLimit = none

/-- Whether the firmware of a bench is within direct reach and its requests are carried out unless
they fail. -/
structure Faithful (bench : Bench) : Prop where
  carrier_eq : bench.carrier = .direct
  withheld : ∀ entry ∈ bench.faults, entry.2.Withholds
  limit_eq : bench.parameterLimit = none

/-- Whether the firmware within direct reach has the given entries. -/
structure Programmed (bench : Bench) (entries : List ((UInt8 × UInt32) × SlaParameters)) : Prop
    extends Faithful bench where
  configured_eq : bench.firmware.configured = entries

theorem Direct.faithful {bench : Bench} (direct : Direct bench) : Faithful bench where
  carrier_eq := direct.carrier_eq
  withheld := by simp [direct.faults_eq]
  limit_eq := direct.limit_eq

/-- How the firmware is reached does not depend on what a bench holds. -/
theorem Direct.with_state {bench : Bench} (direct : Direct bench) (registers : RegisterFile)
    (pool : Pool) (firmware : Firmware) (sent : Nat) :
    Direct { bench with registers, pool, firmware, sent } :=
  ⟨direct.carrier_eq, direct.faults_eq, direct.limit_eq⟩

theorem Faithful.with_state {bench : Bench} (faithful : Faithful bench) (registers : RegisterFile)
    (pool : Pool) (firmware : Firmware) (sent : Nat) :
    Faithful { bench with registers, pool, firmware, sent } :=
  ⟨faithful.carrier_eq, faithful.withheld, faithful.limit_eq⟩

theorem Faithful.programmed {bench : Bench} (faithful : Faithful bench) :
    Programmed bench bench.firmware.configured := ⟨faithful, rfl⟩

/-- What befalls the next request of such a bench keeps it from being carried out. -/
theorem Faithful.withholds {bench : Bench} (faithful : Faithful bench) {fault : LinkFault}
    (met : bench.currentFault? = some fault) : fault.Withholds := by
  rcases Option.map_eq_some_iff.1 met with ⟨entry, found, rfl⟩
  exact faithful.withheld entry (List.mem_reverse.1 (List.mem_of_find?_eq_some found))

variable {bench : Bench} {entries : List ((UInt8 × UInt32) × SlaParameters)}

/-! ## Links -/

/-- Two states of a bench differ in nothing but their registers. -/
def OnlyRegisters (before after : Bench) : Prop :=
  ∃ registers, after = { before with registers }

namespace OnlyRegisters

variable {between after : Bench}

theorem refl (bench : Bench) : OnlyRegisters bench bench := ⟨bench.registers, rfl⟩

theorem trans (first : OnlyRegisters bench between) (second : OnlyRegisters between after) :
    OnlyRegisters bench after := by
  rcases first with ⟨registers, rfl⟩
  rcases second with ⟨others, rfl⟩
  exact ⟨others, rfl⟩

theorem programmed (only : OnlyRegisters bench after) (programmed : Programmed bench entries) :
    Programmed after entries := by
  rcases only with ⟨registers, rfl⟩
  exact ⟨programmed.toFaithful.with_state _ _ _ _, programmed.configured_eq⟩

theorem was_intact (only : OnlyRegisters bench after) (still : intact after) : intact bench := by
  rcases only with ⟨registers, rfl⟩
  exact still

end OnlyRegisters

section Links

variable {refused : Bench → Prop}

theorem write_total (offset : Nat) {value : UInt32} (no_bell : value ≠ 1) :
    Action.Ensures (fun _ => True) (writeRegister offset value) bench
      (fun _ => OnlyRegisters bench) fun _ => False := by
  have written := writeRegister_eq (fun bell => no_bell bell.2 : ¬(offset = _ ∧ _)) bench
  rw [Action.Ensures, written]
  exact ⟨id, _, rfl⟩

theorem setAll_total {table : LinkTable} (indices : List Nat) {value : UInt32}
    (no_bell : value ≠ 1) :
    Action.Ensures (fun _ => True)
      (Action.forEach indices fun index => table.set index value) bench
      (fun _ => OnlyRegisters bench) refused := by
  apply Action.Ensures.forEach (fun _ => OnlyRegisters bench) (.refl bench)
  intro index rest between only
  exact (write_total _ no_bell).weaken (fun _ _ more => only.trans more) fun _ never => never.elim

/-- Linking is refused only for want of a level or of a parent. -/
theorem link_total (node : NodeId) (parent : Option NodeId) (rings : List Nat) :
    Action.Ensures (fun _ => True) (LinkTable.link node parent rings) bench
      (fun _ => OnlyRegisters bench) fun after => OnlyRegisters bench after ∧
        ∀ kind, node.kind? = some kind → kind ≠ .root ∧ parent = none := by
  simp only [LinkTable.link]
  split
  · next unknown => exact .refuse ⟨.refl bench, by simp [unknown]⟩
  · exact .pure (.refl bench)
  · next kind inner known =>
    refine .refuse ⟨.refl bench, ?_⟩
    intro level same
    rw [known, Option.some.injEq] at same
    exact ⟨same ▸ inner, rfl⟩
  · apply (setAll_total rings (LinkTable.linked_ne_one _)).bind
    intro _ between only
    exact (write_total _ (LinkTable.linked_ne_one _)).weaken (fun _ _ more => only.trans more)
      fun _ never => never.elim
  · exact (write_total _ (LinkTable.linked_ne_one _)).weaken (fun _ _ only => only) fun _ never => never.elim

theorem unlink_total (node : NodeId) (rings : List Nat) :
    Action.Ensures (fun _ => True) (LinkTable.unlink node rings) bench
      (fun _ => OnlyRegisters bench) fun _ => False := by
  simp only [LinkTable.unlink]
  split
  · apply (setAll_total rings LinkTable.unlinked_ne_one).bind
    intro _ between only
    exact (write_total _ LinkTable.unlinked_ne_one).weaken (fun _ _ more => only.trans more)
      fun _ never => never
  · exact write_total _ LinkTable.unlinked_ne_one
  · exact .pure (.refl bench)
  · exact .pure (.refl bench)

theorem relink_total (leaf cluster : NodeId) :
    Action.Ensures (fun _ => True) (LinkTable.relink leaf cluster) bench
      (fun _ => OnlyRegisters bench) fun _ => False :=
  write_total _ (LinkTable.linked_ne_one _)

/-- What touches registers only leaves the entries alone. -/
theorem programmed_of_total {action : Action Bench Unit} (programmed : Programmed bench entries)
    {failed : Bench → Prop}
    (total : Action.Ensures (fun _ => True) action bench (fun _ => OnlyRegisters bench) failed)
    (on_error : ∀ after, failed after → OnlyRegisters bench after ∧ refused after) :
    Action.Ensures intact action bench (fun _ after => Programmed after entries) refused := by
  refine (total.of_total (fun _ _ only => only.was_intact)
    fun _ error => (on_error _ error).1.was_intact).weaken ?_ ?_
  · intro _ after only
    exact only.programmed programmed
  · intro after error
    exact (on_error after error).2

theorem link_programmed (programmed : Programmed bench entries) (node : NodeId)
    (parent : Option NodeId) (rings : List Nat) :
    Action.Ensures intact (LinkTable.link node parent rings) bench
      (fun _ after => Programmed after entries) fun after => Programmed after entries :=
  programmed_of_total programmed (link_total node parent rings)
    fun _ refused => ⟨refused.1, refused.1.programmed programmed⟩

theorem unlink_programmed (programmed : Programmed bench entries) (node : NodeId)
    (rings : List Nat) :
    Action.Ensures intact (LinkTable.unlink node rings) bench
      (fun _ after => Programmed after entries) refused :=
  programmed_of_total programmed (unlink_total node rings) fun _ never => never.elim

theorem relink_programmed (programmed : Programmed bench entries) (leaf cluster : NodeId) :
    Action.Ensures intact (LinkTable.relink leaf cluster) bench
      (fun _ after => Programmed after entries) refused :=
  programmed_of_total programmed (relink_total leaf cluster) fun _ never => never.elim

end Links

/-! ## Commands -/

theorem deliver_total (programmed : Programmed bench entries) (request : AdminRequest) :
    Action.Ensures (fun _ => True) (deliver request) bench
      (fun response after => after.pool = bench.pool ∧ ∃ given,
        Firmware.readParameters bench.pool.read request = .ok given ∧
          Firmware.Answered request given bench.firmware after.firmware response ∧
          Programmed after after.firmware.configured)
      fun after => after.pool = bench.pool ∧ Programmed after entries := by
  have delivered : deliver request bench =
      onFirmware (Firmware.receive bench.pool.read request.encode) bench := by
    rw [deliver, programmed.carrier_eq]
  rw [Action.Ensures, delivered]
  refine (onFirmware_total (Firmware.receive_ensures bench.pool.read request _)).weaken ?_ ?_
  · rintro response _ ⟨firmware, rfl, given, read, answered⟩
    exact ⟨rfl, given, read, answered, programmed.toFaithful.with_state _ _ _ _, rfl⟩
  · rintro _ ⟨firmware, rfl, same⟩
    exact ⟨rfl, programmed.toFaithful.with_state _ _ _ _, same.trans programmed.configured_eq⟩

/-- What the sender of a request is told: the answer of the firmware, or, if the firmware has not seen
the request, that it was not carried out. -/
inductive Told (bench : Bench) (entries : List ((UInt8 × UInt32) × SlaParameters))
    (request : AdminRequest) (response : AdminResponse) (after : Bench) : Prop where
  | answered (given : Option SlaParameters)
      (read : Firmware.readParameters bench.pool.read request = .ok given)
      (answer : Firmware.Answered request given bench.firmware after.firmware response)
      (reached : Programmed after after.firmware.configured)
  | denied (denies : response.Denies request) (still : Programmed after entries)

theorem send_total (programmed : Programmed bench entries) (request : AdminRequest) :
    Action.Ensures (fun _ => True) (send request) bench
      (fun response after => after.pool = bench.pool ∧ Told bench entries request response after)
      fun after => after.pool = bench.pool ∧ Programmed after entries := by
  have counted : Programmed { bench with sent := bench.sent + 1 } entries :=
    ⟨programmed.toFaithful.with_state _ _ _ _, programmed.configured_eq⟩
  apply (Action.Ensures.modify id).bind
  rintro _ _ rfl
  apply Action.Ensures.get.bind
  rintro _ _ ⟨rfl, rfl⟩
  split
  · refine (deliver_total counted request).weaken ?_ fun _ failed => failed
    rintro response after ⟨pool_eq, given, read, answer, reached⟩
    exact ⟨pool_eq, .answered given read answer reached⟩
  · exact .refuse ⟨rfl, counted⟩
  · exact .refuse ⟨rfl, counted⟩
  · exact .refuse ⟨rfl, counted⟩
  · exact .refuse ⟨rfl, counted⟩
  · next met => exact (counted.withholds met).elim
  · next code met => exact .pure ⟨rfl, .denied (.inr (counted.withholds met)) counted⟩
  · next response met => exact .pure ⟨rfl, .denied (counted.withholds met request) counted⟩

/-- A command is carried out, or the entries stay; it never ends in a fault. -/
theorem roundTrip_total (programmed : Programmed bench entries) (request : AdminRequest) :
    Action.Ensures (fun _ => True) (AdminChannel.roundTrip request) bench
      (fun _ after => after.pool = bench.pool ∧ ∃ given updated,
        Firmware.readParameters bench.pool.read request = .ok given ∧
          Reprogrammed (request.nodeTag, request.nodeIndex) (given.getD .empty) entries
            request.command updated ∧ Programmed after updated)
      fun after => after.pool = bench.pool ∧ Programmed after entries := by
  apply (send_total programmed request).mapError.bind
  rintro response after ⟨pool_eq, told⟩
  have entries_eq := programmed.configured_eq
  cases told with
  | answered given read answer reached =>
      rw [if_neg (not_not.2 answer.commandId_eq)]
      split
      · next refused =>
        have same := answer.refused refused
        rw [same, entries_eq] at reached
        exact .refuse ⟨pool_eq, reached⟩
      · next accepted =>
        have carried_out := answer.carried_out (not_not.1 accepted)
        rw [entries_eq] at carried_out
        exact .pure ⟨pool_eq, given, _, read, carried_out, reached⟩
  | denied denies still =>
      split
      · exact .refuse ⟨pool_eq, still⟩
      · next own =>
        rcases denies with foreign | refused
        · exact absurd foreign own
        · rw [if_pos refused]
          exact .refuse ⟨pool_eq, still⟩

theorem roundTrip_programs (programmed : Programmed bench entries) (request : AdminRequest) :
    Action.Ensures intact (AdminChannel.roundTrip request) bench
      (fun _ after => ∃ given updated,
        Firmware.readParameters bench.pool.read request = .ok given ∧
          Reprogrammed (request.nodeTag, request.nodeIndex) (given.getD .empty) entries
            request.command updated ∧ Programmed after updated)
      fun after => Programmed after entries := by
  have same_pool (after : Bench) (pool_eq : after.pool = bench.pool) (still : intact after) :
      intact bench := by
    change bench.pool.nextAddress < 2 ^ 64
    rw [← pool_eq]
    exact still
  refine ((roundTrip_total programmed request).of_total (fun _ after done => same_pool after done.1)
    fun after failed => same_pool after failed.1).weaken ?_ ?_
  · intro _ after done
    exact done.2
  · intro after failed
    exact failed.2

/-- How an action that is lent a block ends: without the block when the addresses have run out, and
otherwise with the block at the next address, which then goes back. -/
inductive Lends {α : Type} (bench : Bench) (size : Nat) (action : Block → Action Bench α) :
    Outcome α × Bench → Prop where
  | exhausted (cause : Fault) (full : 2 ^ 64 ≤ bench.pool.nextAddress) :
      Lends bench size action (.error (.fault cause), bench)
  | lent (positive : 0 < size) (room : bench.pool.nextAddress < 2 ^ 64)
      {outcome : Outcome α} {after : Bench}
      (ended : action ⟨bench.pool.nextAddress, size⟩
        { bench with pool := bench.pool.push size positive } = (outcome, after)) :
      Lends bench size action
        (outcome, { after with pool := after.pool.free bench.pool.nextAddress })

theorem withBlock_lends_of_granted {α : Type} {use : BlockUse} {size : Nat}
    (granted : bench.granted use size = size) (positive : 0 < size) (small : size ≤ pageSize)
    (action : Block → Action Bench α) : Lends bench size action (withBlock use size action bench) := by
  have allocating := bench.pool.allocate_small small
  simp only [withBlock, BlockMemory.allocate, onPool, Action.focus, granted]
  generalize Pool.allocate size bench.pool = allocated at allocating
  cases allocating with
  | empty nothing => omega
  | exhausted cause full => exact .exhausted cause full
  | block positive room => exact .lent positive room rfl

theorem withBlock_lends {α : Type} (unlimited : bench.parameterLimit = none)
    (action : Block → Action Bench α) :
    Lends bench parameterBlockSize action
      (withBlock .parameters parameterBlockSize action bench) := by
  apply withBlock_lends_of_granted _ (by decide) (by decide)
  rw [Bench.granted, unlimited]

theorem withBlock_programs {α : Type} (programmed : Programmed bench entries)
    {action : Block → Action Bench α} {holds : List ((UInt8 × UInt32) × SlaParameters) → Prop}
    (inner : ∀ positive : 0 < parameterBlockSize, bench.pool.nextAddress < 2 ^ 64 →
      Action.Ensures intact (action ⟨bench.pool.nextAddress, parameterBlockSize⟩)
        { bench with pool := bench.pool.push parameterBlockSize positive }
        (fun _ after => ∃ updated, holds updated ∧ Programmed after updated)
        fun after => Programmed after entries) :
    Action.Ensures intact (withBlock .parameters parameterBlockSize action) bench
      (fun _ after => ∃ updated, holds updated ∧ Programmed after updated)
      fun after => Programmed after entries := by
  have released {pool : Pool} {after : Bench} {reached} (still : Programmed after reached) :
      Programmed { after with pool } reached :=
    ⟨still.toFaithful.with_state _ _ _ _, still.configured_eq⟩
  have lends := withBlock_lends programmed.limit_eq action
  rw [Action.Ensures]
  generalize withBlock .parameters parameterBlockSize action bench = finished at lends ⊢
  cases lends with
  | exhausted cause full => exact Nat.not_lt.2 full
  | @lent positive room outcome after ended =>
      have acting := inner positive room
      rcases outcome with (cause | cause) | value
      · exact ⟨fun _ => room, released (acting.of_error ended).2⟩
      · have broken := acting.of_fault ended
        exact broken
      · rcases (acting.of_ok ended).2 with ⟨updated, done, reached⟩
        exact ⟨fun _ => room, updated, done, released reached⟩

theorem fill_push {size : Nat} {positive : 0 < size} {bytes : List UInt8}
    (fits : bytes.length ≤ size) :
    BlockMemory.fill ⟨bench.pool.nextAddress, size⟩ bytes
        { bench with pool := bench.pool.push size positive } =
      (.ok (), { bench with
        pool := (bench.pool.push size positive).overwriteBlock bench.pool.nextAddress 0 bytes }) := by
  simp only [BlockMemory.fill, onPool, Action.focus, Pool.write_push fits]

/-- Sending a command on an agreement has it carried out with the tokens and rings that were given, or
leaves the entries as they are. -/
theorem sendSla_programs (programmed : Programmed bench entries) {command : AdminCommand}
    (no_reset : command ≠ .init) {id : NodeId} {kind : NodeKind} (known : id.kind? = some kind)
    (service : Service) (tokens : Tokens) (rings : List Nat) :
    Action.Ensures intact (AdminChannel.sendSla command id service tokens rings) bench
      (fun _ after => ∃ updated,
        Reprogrammed id.entryKey ⟨tokens, rings.map Nat.toUInt16⟩ entries command updated ∧
          Programmed after updated)
      fun after => Programmed after entries := by
  simp only [AdminChannel.sendSla, if_neg no_reset, known]
  refine (Action.Ensures.check ?_).bind ?_
  · exact programmed
  rintro ids bench ⟨listed, rfl⟩
  rcases AdminChannel.ringIds_eq_ok.1 listed with ⟨few, -, rfl⟩
  apply withBlock_programs programmed
  intro positive room
  have with_pool (pool : Pool) : Programmed { bench with pool } entries :=
    ⟨programmed.toFaithful.with_state _ _ _ _, programmed.configured_eq⟩
  split
  · have fits : (rings.map Nat.toUInt16).length ≤ maxRings := by simpa using few
    apply Action.Ensures.bind_ok (fill_push (SlaParameters.length_encode _).le) fun room => room
    refine (roundTrip_programs (with_pool _) _).weaken ?_ fun _ still => still
    rintro _ after ⟨given, updated, read, carried_out, reached⟩
    have above : 0 < bench.pool.nextAddress := by
      simp only [Pool.nextAddress, firstAddress]
      omega
    have held : ((bench.pool.push parameterBlockSize positive).overwriteBlock
        bench.pool.nextAddress 0 (SlaParameters.encode ⟨tokens, rings.map Nat.toUInt16⟩)).read
          bench.pool.nextAddress = some (SlaParameters.encode ⟨tokens, rings.map Nat.toUInt16⟩) :=
      Pool.read_push_overwriteBlock (SlaParameters.length_encode _)
    have received := AdminChannel.readParameters_slaRequest above room fits held command kind id
      service
    rw [AdminChannel.entryKey_slaRequest known] at carried_out
    rw [received, Except.ok.injEq] at read
    subst read
    exact ⟨updated, carried_out, reached⟩
  · next deleted =>
    refine (roundTrip_programs (with_pool _) _).weaken ?_ fun _ still => still
    rintro _ after ⟨given, updated, -, carried_out, reached⟩
    rw [AdminChannel.entryKey_slaRequest known] at carried_out
    exact ⟨updated, carried_out.of_delete (not_not.1 deleted), reached⟩

/-- With its block at hand, a command does not end in a fault. -/
theorem sending_total (faithful : Faithful bench) (positive : 0 < parameterBlockSize)
    (command : AdminCommand) (parameters : SlaParameters) (request : AdminRequest) :
    Action.Ensures (fun _ => True)
      (do
        if command ≠ .delete then
          BlockMemory.fill ⟨bench.pool.nextAddress, parameterBlockSize⟩ parameters.encode
        AdminChannel.roundTrip request)
      { bench with pool := bench.pool.push parameterBlockSize positive } (fun _ _ => True)
      fun _ => True := by
  have with_pool (pool : Pool) : Faithful { bench with pool } := faithful.with_state _ _ _ _
  split
  · apply Action.Ensures.bind_ok (fill_push (SlaParameters.length_encode _).le) fun _ => trivial
    exact (roundTrip_total (with_pool _).programmed request).weaken (fun _ _ _ => trivial)
      fun _ _ => trivial
  · exact (roundTrip_total (with_pool _).programmed request).weaken (fun _ _ _ => trivial)
      fun _ _ => trivial

/-- A command that ends in a fault found no address for its parameter block and went no further. -/
theorem sendSla_fault (programmed : Programmed bench entries) {command : AdminCommand}
    (no_reset : command ≠ .init) {id : NodeId} {kind : NodeKind} (known : id.kind? = some kind)
    {service : Service} {tokens : Tokens} {rings : List Nat} {cause : Fault} {after : Bench}
    (run : AdminChannel.sendSla command id service tokens rings bench =
      (.error (.fault cause), after)) : Programmed after entries := by
  simp only [AdminChannel.sendSla, if_neg no_reset, known] at run
  rcases Action.bind_eq_error.1 run with checking | ⟨ids, between, checked, lending⟩
  · rw [Action.liftError_apply] at checking
    cases listed : AdminChannel.ringIds rings <;> rw [listed] at checking <;> cases checking
  · rw [Action.liftError_apply, Prod.mk.injEq, Outcome.liftError_eq_ok] at checked
    rcases checked with ⟨listed, rfl⟩
    rcases AdminChannel.ringIds_eq_ok.1 listed with ⟨-, -, rfl⟩
    have lends := withBlock_lends programmed.limit_eq fun block => do
      if command ≠ .delete then
        BlockMemory.fill block (SlaParameters.encode ⟨tokens, rings.map Nat.toUInt16⟩)
      AdminChannel.roundTrip
        (AdminChannel.slaRequest command kind id service (rings.map Nat.toUInt16).length block.iova)
    rw [lending] at lends
    cases lends with
    | exhausted cause full => exact programmed
    | lent positive room ended =>
        have total := sending_total programmed.toFaithful positive command
          ⟨tokens, rings.map Nat.toUInt16⟩ (AdminChannel.slaRequest command kind id service
            (rings.map Nat.toUInt16).length bench.pool.nextAddress)
        exact absurd trivial (total.of_fault ended)

end Bench

namespace Limiter

open Bench (Programmed)

variable {bench : Bench} {entries : List ((UInt8 × UInt32) × SlaParameters)} {kind : NodeKind}

/-- What applying an agreement to a bench comes to: the firmware has carried the command out, or has
the entries it had. -/
def Programs (apply : Action Bench Unit) (command : AdminCommand) (id : NodeId) (tokens : Tokens)
    (rings : List Nat) (bench : Bench) (entries : List ((UInt8 × UInt32) × SlaParameters)) : Prop :=
  Action.Ensures intact apply bench
    (fun _ after => ∃ updated,
      Reprogrammed id.entryKey ⟨tokens, rings.map Nat.toUInt16⟩ entries command updated ∧
        Programmed after updated)
    fun after => Programmed after entries

theorem applyCreate_programs (programmed : Programmed bench entries) {plan : Tree.CreatePlan}
    (known : plan.sla.node.kind? = some kind) :
    Programs (applyCreate plan) .add plan.sla.node plan.tokens plan.rings bench entries := by
  apply (Bench.link_programmed programmed _ _ _).bind
  intro _ between linked
  apply (Bench.sendSla_programs linked (by decide) known _ _ _).undoOnError
  intro after still
  exact Bench.unlink_programmed still _ _

theorem applyUpdate_programs (programmed : Programmed bench entries) {plan : Tree.UpdatePlan}
    (known : plan.id.kind? = some kind) :
    Programs (applyUpdate plan) .update plan.id plan.tokens plan.rings bench entries := by
  have sends {between : Bench} (linked : Programmed between entries) :=
    Bench.sendSla_programs linked (show AdminCommand.update ≠ .init by decide) known
      plan.sla.service plan.tokens plan.rings
  simp only [Programs, applyUpdate]
  split
  · split
    · exact sends programmed
    · apply (Bench.relink_programmed programmed _ _).bind
      intro _ between linked
      apply (sends linked).undoOnError
      intro after still
      exact Bench.relink_programmed still _ _
  · exact sends programmed

theorem applyDelete_programs (programmed : Programmed bench entries) {plan : Tree.DeletePlan}
    (known : plan.id.kind? = some kind) :
    Programs (applyDelete plan) .delete plan.id .zero plan.rings bench entries := by
  apply (Bench.sendSla_programs programmed (by decide) known _ _ _).bind
  rintro _ between ⟨updated, done, reached⟩
  refine (Bench.unlink_programmed reached _ _).weaken ?_ fun _ never => never
  intro _ after still
  exact ⟨updated, done, still⟩

/-! ## Faults -/

section Faults

variable {cause : Fault} {after : Bench}

theorem applyCreate_fault (programmed : Programmed bench entries) {plan : Tree.CreatePlan}
    (known : plan.sla.node.kind? = some kind)
    (run : applyCreate plan bench = (.error (.fault cause), after)) : Programmed after entries := by
  rcases Action.bind_eq_error.1 run with linking | ⟨_, between, linked, sending⟩
  · exact absurd trivial ((Bench.link_total _ _ _).of_fault linking)
  · have reached := ((Bench.link_total _ _ _).of_ok linked).2.programmed programmed
    rcases Action.undoOnError_eq_fault sending with sent | ⟨refused, undoing⟩
    · exact Bench.sendSla_fault reached (by decide) known sent
    · exact absurd trivial ((Bench.unlink_total _ _).of_fault undoing)

theorem applyUpdate_fault (programmed : Programmed bench entries) {plan : Tree.UpdatePlan}
    (known : plan.id.kind? = some kind)
    (run : applyUpdate plan bench = (.error (.fault cause), after)) : Programmed after entries := by
  cases was : plan.oldParent with
  | none =>
      simp only [applyUpdate, was] at run
      exact Bench.sendSla_fault programmed (by decide) known run
  | some source =>
      cases is : plan.sla.parent with
      | none =>
          simp only [applyUpdate, was, is] at run
          exact Bench.sendSla_fault programmed (by decide) known run
      | some target =>
          simp only [applyUpdate, was, is] at run
          by_cases same : source = target
          · rw [if_pos same] at run
            exact Bench.sendSla_fault programmed (by decide) known run
          · rw [if_neg same] at run
            rcases Action.bind_eq_error.1 run with linking | ⟨_, between, linked, sending⟩
            · exact absurd trivial ((Bench.relink_total _ _).of_fault linking)
            · have reached := ((Bench.relink_total _ _).of_ok linked).2.programmed programmed
              rcases Action.undoOnError_eq_fault sending with sent | ⟨refused, undoing⟩
              · exact Bench.sendSla_fault reached (by decide) known sent
              · exact absurd trivial ((Bench.relink_total _ _).of_fault undoing)

theorem applyDelete_fault (programmed : Programmed bench entries) {plan : Tree.DeletePlan}
    (known : plan.id.kind? = some kind)
    (run : applyDelete plan bench = (.error (.fault cause), after)) : Programmed after entries := by
  rcases Action.bind_eq_error.1 run with sending | ⟨_, between, sent, unlinking⟩
  · exact Bench.sendSla_fault programmed (by decide) known sending
  · exact absurd trivial ((Bench.unlink_total _ _).of_fault unlinking)

end Faults

end Limiter

end RateTree
