import RateTree.Admin.Channel
import RateTree.LinkTable
import RateTree.Proofs.Ensures

/-!
# Devices with link tables

What a limiter relies on about its device. A write to a link register sets that register and no other
link register; blocks of memory and admin exchanges leave the link registers alone; and a block that
was handed out stays so until it is released. Nothing is said about what an exchange answers, whether
a block is handed out, or how large it is. A device that is no longer intact has had a fault in the
middle of an operation.
-/

namespace RateTree

namespace LinkTable

/-- The number of registers that belong to a table and to nothing else. -/
def extent : LinkTable → Nat
  | .ringToLeaf => 512
  | .leafToCluster => 64
  | .clusterToRoot => 16

/-- No two entries share a register. -/
theorem offset_inj {table other : LinkTable} {index place : Nat} (inside : index < table.extent)
    (there : place < other.extent) (same : table.offset index = other.offset place) :
    table = other ∧ index = place := by
  cases table <;> cases other <;> simp only [extent, offset, base] at inside there same <;>
    first
      | exact ⟨rfl, by omega⟩
      | omega

/-- The value of a link is never the one that rings a bell. -/
theorem linked_ne_one (parent : Nat) : linked parent ≠ 1 := by
  intro bell
  have value := congrArg UInt32.toNat bell
  rw [linked, UInt32.toNat_or] at value
  have high : (0x80000000 : UInt32).toNat ≤ 1 := by
    calc (0x80000000 : UInt32).toNat
        ≤ (0x80000000 : UInt32).toNat ||| parent.toUInt32.toNat := Nat.left_le_or
      _ = 1 := value
  exact absurd high (by decide)

theorem unlinked_ne_one : unlinked ≠ 1 := by decide

end LinkTable

/-- What can be seen of a device from outside. -/
class DeviceView (δ : Type) where
  /-- The value of a register. -/
  register : δ → Nat → UInt32
  /-- How many blocks of memory are handed out. -/
  outstanding : δ → Nat
  /-- Whether a block is handed out. -/
  lent : δ → Block → Prop
  /-- Whether no operation on the device has been cut short by a fault. -/
  intact : δ → Prop

export DeviceView (register outstanding lent intact)

variable {δ α : Type}

section View

variable [DeviceView δ]

/-- The value of an entry of a link table. -/
def linkEntry (device : δ) (table : LinkTable) (index : Nat) : UInt32 :=
  register device (table.offset index)

/-- Two states of a device have the same link entries. -/
def SameLinks (before after : δ) : Prop :=
  ∀ table index, index < table.extent → linkEntry after table index = linkEntry before table index

/-- Two states of a device have the same link entries and as many blocks handed out. -/
structure Undisturbed (before after : δ) : Prop where
  links : SameLinks before after
  outstanding_eq : outstanding after = outstanding before

/-- Besides, what was handed out still is. -/
structure Keeps (before after : δ) : Prop extends Undisturbed before after where
  lent_still : ∀ block, lent before block → lent after block

theorem Undisturbed.refl (device : δ) : Undisturbed device device := ⟨fun _ _ _ => rfl, rfl⟩

theorem Undisturbed.trans {before between after : δ} (first : Undisturbed before between)
    (second : Undisturbed between after) : Undisturbed before after where
  links table index inside := (second.links table index inside).trans (first.links table index inside)
  outstanding_eq := second.outstanding_eq.trans first.outstanding_eq

theorem Keeps.trans {before between after : δ} (first : Keeps before between)
    (second : Keeps between after) : Keeps before after :=
  ⟨first.toUndisturbed.trans second.toUndisturbed,
    fun block lent => second.lent_still block (first.lent_still block lent)⟩

end View

/-- A device whose link entries change by writes to them only. -/
class LinkedDevice (δ : Type) extends RegisterAccess δ, BlockMemory δ, AdminTransport δ, DeviceView δ
    where
  write_link : ∀ (device : δ) (table : LinkTable) (index : Nat) (value : UInt32),
    index < table.extent →
    Action.Ensures intact (writeRegister (table.offset index) value) device
      (fun _ after => outstanding after = outstanding device ∧
        ∀ (other : LinkTable) place, place < other.extent →
          register after (other.offset place) =
            if other.offset place = table.offset index then value
            else register device (other.offset place))
      fun _ => False
  write_zero : ∀ (device : δ) (offset : Nat),
    Action.Ensures intact (writeRegister offset 0) device
      (fun _ after => ∀ table index, index < table.extent →
        linkEntry device table index = LinkTable.unlinked →
          linkEntry after table index = LinkTable.unlinked)
      fun _ => False
  allocate_block : ∀ device : δ,
    Action.Ensures intact (BlockMemory.allocate .parameters parameterBlockSize) device
      (fun block after => SameLinks device after ∧ outstanding after = outstanding device + 1 ∧
        lent after block)
      (Undisturbed device)
  fill_block : ∀ (device : δ) (block : Block) (bytes : List UInt8),
    Action.Ensures intact (BlockMemory.fill block bytes) device (fun _ => Keeps device)
      (Keeps device)
  release_block : ∀ (device : δ) (block : Block),
    (intact (BlockMemory.release block device) → intact device) ∧
      SameLinks device (BlockMemory.release block device) ∧
      (lent device block →
        outstanding (BlockMemory.release block device) + 1 = outstanding device)
  exchange_message : ∀ (device : δ) (request : AdminRequest),
    Action.Ensures intact (AdminTransport.exchange request) device (fun _ => Keeps device)
      (Keeps device)

variable [LinkedDevice δ] {device : δ}

theorem LinkTable.set_ensures {table : LinkTable} {index : Nat} (value : UInt32)
    (inside : index < table.extent) :
    Action.Ensures intact (table.set index value) device
      (fun _ after => outstanding after = outstanding device ∧
        ∀ (other : LinkTable) place, place < other.extent →
          linkEntry after other place =
            if other = table ∧ place = index then value else linkEntry device other place)
      fun _ => False := by
  refine (LinkedDevice.write_link device table index value inside).weaken ?_ fun _ never => never
  rintro _ after ⟨outstanding_eq, written⟩
  refine ⟨outstanding_eq, ?_⟩
  intro other place there
  rw [linkEntry, written other place there]
  by_cases same : other = table ∧ place = index
  · rcases same with ⟨rfl, rfl⟩
    simp
  · rw [if_neg same, if_neg]
    · rfl
    · intro clash
      exact same (LinkTable.offset_inj there inside clash)

/-- A block that was lent out for an action is back after it. -/
theorem withBlock_ensures {action : Block → Action δ α}
    (inner : ∀ block between,
      Action.Ensures intact (action block) between (fun _ => Keeps between) (Keeps between)) :
    Action.Ensures intact (withBlock .parameters parameterBlockSize action) device
      (fun _ => Undisturbed device) (Undisturbed device) := by
  have allocating := LinkedDevice.allocate_block device
  rcases allocated : BlockMemory.allocate .parameters parameterBlockSize device with
    ⟨(cause | cause) | block, between⟩
  · simp only [Action.Ensures, withBlock, allocated]
    exact allocating.of_error allocated
  · simp only [Action.Ensures, withBlock, allocated]
    exact allocating.of_fault allocated
  · rcases allocating.of_ok allocated with ⟨still, links, more, lent⟩
    have acting := inner block between
    -- Whatever the action comes to, the block it kept goes back.
    have back : ∀ after, (intact after → intact between) → Keeps between after →
        (intact (BlockMemory.release block after) → intact device) ∧
          Undisturbed device (BlockMemory.release block after) := by
      intro after kept keeps
      rcases LinkedDevice.release_block after block with ⟨released, links_after, fewer⟩
      have count := fewer (keeps.lent_still block lent)
      have kept_count := keeps.outstanding_eq
      refine ⟨fun sound => still (kept (released sound)), ?_, by omega⟩
      intro table index inside
      exact (links_after table index inside).trans
        ((keeps.links table index inside).trans (links table index inside))
    rcases acted : action block between with ⟨(cause | cause) | value, after⟩
    · rcases acting.of_error acted with ⟨kept, keeps⟩
      simp only [Action.Ensures, withBlock, allocated, acted]
      exact back after kept keeps
    · have broken := acting.of_fault acted
      simp only [Action.Ensures, withBlock, allocated, acted]
      exact fun sound => broken ((LinkedDevice.release_block after block).1 sound)
    · rcases acting.of_ok acted with ⟨kept, keeps⟩
      simp only [Action.Ensures, withBlock, allocated, acted]
      exact back after kept keeps

namespace AdminChannel

theorem roundTrip_ensures (request : AdminRequest) :
    Action.Ensures intact (roundTrip request) device (fun _ => Keeps device) (Keeps device) := by
  apply (LinkedDevice.exchange_message device request).mapError.bind
  intro response after keeps
  split
  · exact .refuse keeps
  · split
    · exact .refuse keeps
    · exact .pure keeps

/-- Sending a command on an agreement leaves the links and the number of blocks alone, whatever the
transport answers. -/
theorem sendSla_ensures (command : AdminCommand) (node : NodeId) (service : Service)
    (tokens : Tokens) (rings : List Nat) :
    Action.Ensures intact (sendSla command node service tokens rings) device
      (fun _ => Undisturbed device) (Undisturbed device) := by
  simp only [sendSla]
  split
  · exact .refuse_bind (.refl device)
  · split
    · exact .refuse (.refl device)
    · next kind _ =>
      apply (Action.Ensures.check (.refl device)).bind
      rintro ids _ ⟨-, rfl⟩
      apply withBlock_ensures
      intro block between
      split
      · apply (LinkedDevice.fill_block between block _).bind
        intro _ filled keeps
        exact (roundTrip_ensures _).weaken (fun _ after kept => keeps.trans kept)
          fun after kept => keeps.trans kept
      · exact roundTrip_ensures _

end AdminChannel

end RateTree
