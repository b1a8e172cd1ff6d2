import RateTree.Proofs.Invariant
import RateTree.Proofs.PooledMemory
import RateTree.Proofs.Reports

/-!
# How many addresses are used up

A bench never hands out an address twice, so every block takes up addresses for good. A command on an
agreement takes at most two pages, one for its parameters and one for a message; an operation takes
two for each agreement that it touches, of which there are never more than slots in the tree.
-/

namespace RateTree

namespace Action

variable {σ α β : Type} {holds : σ → Prop} {used : σ → Nat} {most rest : Nat}

/-- Whether an action, started where something holds, leaves a state where it holds again and uses up
at most a given amount, however it ends. -/
def Spends (holds : σ → Prop) (used : σ → Nat) (most : Nat) (action : Action σ α) : Prop :=
  ∀ state, holds state → holds (action state).2 ∧ used (action state).2 ≤ used state + most

namespace Spends

theorem mono {action : Action σ α} (spends : Spends holds used most action) (below : most ≤ rest) :
    Spends holds used rest action := by
  intro state start
  rcases spends state start with ⟨kept, within⟩
  exact ⟨kept, by omega⟩

theorem of_still {action : Action σ α} (still : ∀ state, (action state).2 = state) :
    Spends holds used 0 action := by
  intro state start
  rw [still]
  exact ⟨start, Nat.le_refl _⟩

theorem pure (value : α) : Spends holds used 0 (Pure.pure value) := of_still fun _ => rfl

theorem check (checked : Except Error α) : Spends holds used 0 (liftM checked) := of_still fun _ => rfl

theorem check_bind {checked : Except Error α} {next : α → Action σ β}
    (second : ∀ value, checked = .ok value → Spends holds used most (next value)) :
    Spends holds used most (liftM checked >>= next) := by
  intro state start
  cases checked with
  | error cause => exact ⟨start, Nat.le_add_right _ _⟩
  | ok value => exact second value rfl state start

theorem refuse (cause : Error) : Spends holds used 0 (Action.refuse cause : Action σ α) :=
  of_still fun _ => rfl

theorem bind {action : Action σ α} {next : α → Action σ β} (first : Spends holds used most action)
    (second : ∀ value, Spends holds used rest (next value)) :
    Spends holds used (most + rest) (action >>= next) := by
  intro state start
  rcases first state start with ⟨kept, within⟩
  rw [Action.bind_apply]
  cases result : action state with
  | mk outcome after =>
      rw [result] at kept within
      cases outcome with
      | error failure =>
          exact ⟨kept, Nat.le_trans within (Nat.add_le_add_left (Nat.le_add_right _ _) _)⟩
      | ok value =>
          rcases second value after kept with ⟨kept_still, within_rest⟩
          have together := Nat.add_le_add_right within rest
          rw [Nat.add_assoc] at together
          exact ⟨kept_still, Nat.le_trans within_rest together⟩

/-- A bind whose first part uses nothing up. -/
theorem free_bind {action : Action σ α} {next : α → Action σ β} (first : Spends holds used 0 action)
    (second : ∀ value, Spends holds used rest (next value)) :
    Spends holds used rest (action >>= next) :=
  (first.bind second).mono (by omega)

theorem bind_free {action : Action σ α} {next : α → Action σ β}
    (first : Spends holds used most action) (second : ∀ value, Spends holds used 0 (next value)) :
    Spends holds used most (action >>= next) :=
  first.bind second

theorem get_bind {next : σ → Action σ α} (second : ∀ state, holds state →
    Spends holds used most (next state)) : Spends holds used most (Action.get >>= next) :=
  fun state start => second state start state start

theorem undoOnError {action : Action σ α} {undo : Action σ Unit}
    (first : Spends holds used most action) (undone : Spends holds used 0 undo) :
    Spends holds used most (action.undoOnError undo) := by
  intro state start
  have spent := first state start
  simp only [Action.undoOnError]
  split
  · next cause after result =>
    rw [result] at spent
    rcases undone after spent.1 with ⟨kept, within⟩
    split <;> next undoing =>
      rw [undoing] at kept within
      exact ⟨kept, Nat.le_trans within spent.2⟩
  · exact spent

theorem passOver {action : Action σ Unit} (spends : Spends holds used most action) :
    Spends holds used most action.passOver := by
  intro state start
  have spent := spends state start
  simp only [Action.passOver]
  split
  · next after result => rwa [result] at spent
  · exact spent

theorem mapError {action : Action σ α} (change : Error → Error)
    (spends : Spends holds used most action) : Spends holds used most (action.mapError change) := by
  intro state start
  have spent := spends state start
  simp only [Action.mapError]
  split
  · next after result => rwa [result] at spent
  · exact spent

theorem forEach {items : List α} {each : α → Action σ Unit} {count : Nat}
    (few : items.length ≤ count) (spends : ∀ item, Spends holds used most (each item)) :
    Spends holds used (count * most) (Action.forEach items each) := by
  induction items generalizing count with
  | nil => exact (pure ()).mono (Nat.zero_le _)
  | cons item later ih =>
      cases count with
      | zero => simp at few
      | succ count =>
          rw [Nat.succ_mul, Nat.add_comm]
          apply (spends item).bind
          intro _
          exact ih (by simpa using few)

end Spends

end Action

namespace Bench

variable {α : Type} {most : Nat}

/-- Whether an action uses up a number of addresses at most. -/
abbrev Spends (most : Nat) (action : Action Bench α) : Prop :=
  action.Spends (fun _ => True) (fun bench => bench.pool.nextAddress) most

theorem spends_of_same {action : Action Bench α}
    (same : ∀ bench, (action bench).2.pool.nextAddress = bench.pool.nextAddress) :
    Spends 0 action := fun bench _ => ⟨trivial, Nat.le_of_eq (same bench)⟩

theorem nextAddress_write (iova offset : Nat) (data : List UInt8) (pool : Pool) :
    (Pool.write iova offset data pool).2.nextAddress = pool.nextAddress := by
  simp only [Pool.write]
  split
  · rfl
  · split <;> rfl

theorem pool_respond (bell : Bell) (request : AdminRequest) (bench : Bench) :
    (respond bell request bench).2.pool = bench.pool := by
  simp only [respond]
  split
  · rfl
  · split <;> next served => exact congrArg (fun ended => ended.2.pool) served.symm

theorem nextAddress_ring (bell : Bell) (bench : Bench) :
    (ring bell bench).pool.nextAddress = bench.pool.nextAddress := by
  simp only [ring]
  split
  · rfl
  · split
    · exact (nextAddress_write _ _ _ _).trans (congrArg Pool.nextAddress (pool_respond _ _ _))
    · rfl

theorem spends_writeRegister (offset : Nat) (value : UInt32) :
    Spends 0 (writeRegister offset value) := by
  apply spends_of_same
  intro bench
  simp only [writeRegister]
  split
  · split
    · exact nextAddress_ring _ _
    · rfl
  · rfl

theorem spends_readRegister (offset : Nat) : Spends 0 (readRegister (σ := Bench) offset) := by
  apply spends_of_same
  intro bench
  simp only [readRegister]
  split
  · split
    · simp only [readDoorbell]
      split
      · rfl
      · split <;> rfl
    · rfl
  · rfl

theorem spends_fill (block : Block) (bytes : List UInt8) :
    Spends 0 (BlockMemory.fill (σ := Bench) block bytes) :=
  spends_of_same fun bench => nextAddress_write block.iova 0 bytes bench.pool

theorem spends_awaitClear (polls : Nat) : Spends 0 (Mailbox.awaitClear polls) := by
  induction polls with
  | zero => exact .of_still fun _ => rfl
  | succ polls ih =>
      rw [awaitClear_succ]
      apply (spends_readRegister Mailbox.doorbell).free_bind
      intro value
      split
      · exact .pure true
      · exact ih

theorem spends_post (iova : Nat) : Spends 0 (Mailbox.post iova) := by
  apply (spends_writeRegister _ _).free_bind
  intro _
  apply (spends_writeRegister _ _).free_bind
  intro _
  exact spends_writeRegister _ _

/-- A block of at most a page takes up one. -/
theorem spends_withBlock {use : BlockUse} {size : Nat} (small : size ≤ pageSize)
    {action : Block → Action Bench α} (inner : ∀ block, Spends most (action block)) :
    Spends (pageSize + most) (withBlock use size action) := by
  intro bench _
  refine ⟨trivial, ?_⟩
  have granted_small : bench.granted use size ≤ pageSize := by
    simp only [granted]
    split
    · exact Nat.le_trans (Nat.min_le_left _ _) small
    · exact small
  have allocating := bench.pool.allocate_small granted_small
  simp only [withBlock, BlockMemory.allocate, onPool, Action.focus]
  generalize Pool.allocate (bench.granted use size) bench.pool = finished at allocating ⊢
  cases allocating with
  | empty nothing => exact Nat.le_add_right _ _
  | exhausted cause full => exact Nat.le_add_right _ _
  | block positive room =>
      have within := (inner ⟨bench.pool.nextAddress, bench.granted use size⟩
        { bench with pool := bench.pool.push _ positive } trivial).2
      have taken := bench.pool.nextAddress_push positive granted_small
      refine Nat.le_trans within ?_
      simp only [taken]
      omega

theorem spends_exchange (limits : PollLimits) (request : AdminRequest) :
    Spends pageSize (Mailbox.exchange limits request) := by
  show Spends (pageSize + 0) (Mailbox.exchange limits request)
  apply spends_withBlock (by decide)
  intro area
  apply (spends_fill _ _).free_bind
  intro _
  apply (spends_post _).free_bind
  intro _
  apply (spends_awaitClear _).free_bind
  intro clear
  split
  · exact (Action.Spends.refuse _).free_bind fun _ => .get_bind fun _ _ => .check _
  · exact .get_bind fun _ _ => .check _

theorem spends_deliver (request : AdminRequest) : Spends pageSize (deliver request) := by
  intro bench _
  simp only [deliver]
  split
  · exact ⟨trivial, Nat.le_add_right _ _⟩
  · exact spends_exchange _ request bench trivial

theorem spends_send (request : AdminRequest) : Spends pageSize (send request) := by
  apply (spends_of_same fun _ => rfl).free_bind
  intro _
  apply Action.Spends.get_bind
  intro bench _
  have refused (cause : Error) : Spends pageSize (Action.refuse cause : Action Bench AdminResponse) :=
    (Action.Spends.refuse cause).mono (Nat.zero_le _)
  split
  · exact spends_deliver request
  · exact refused _
  · exact refused _
  · exact refused _
  · exact refused _
  · exact (spends_deliver request).bind_free fun _ => .refuse _
  · exact (Action.Spends.pure _).mono (Nat.zero_le _)
  · exact (Action.Spends.pure _).mono (Nat.zero_le _)

theorem spends_roundTrip (request : AdminRequest) :
    Spends pageSize (AdminChannel.roundTrip (σ := Bench) request) := by
  apply ((spends_send request).mapError _).bind_free
  intro response
  split
  · exact .refuse _
  · split
    · exact .refuse _
    · exact .pure ()

/-- A command on an agreement takes up a page for its parameters and one for its message. -/
theorem spends_sendSla (command : AdminCommand) (node : NodeId) (service : Service) (tokens : Tokens)
    (rings : List Nat) :
    Spends (pageSize + pageSize)
      (AdminChannel.sendSla (σ := Bench) command node service tokens rings) := by
  rcases AdminChannel.sendSla_cases (σ := Bench) command node service tokens rings with
    ⟨cause, refused⟩ | ⟨kind, ids, -, -, -, sent⟩
  · intro bench _
    rw [refused]
    exact ⟨trivial, Nat.le_add_right _ _⟩
  · have lent : Spends (pageSize + pageSize) (withBlock .parameters parameterBlockSize
        (AdminChannel.sendIn (σ := Bench) command kind node service ⟨tokens, ids⟩)) := by
      apply spends_withBlock (by decide)
      intro block
      simp only [AdminChannel.sendIn]
      split
      · apply (spends_fill _ _).free_bind
        intro _
        exact spends_roundTrip _
      · exact spends_roundTrip _
    intro bench start
    rw [sent]
    exact lent bench start

theorem spends_setAll (table : LinkTable) (indices : List Nat) (value : UInt32) :
    Spends 0 (Action.forEach indices fun index => table.set (σ := Bench) index value) :=
  (Action.Spends.forEach (Nat.le_refl _) fun _ => spends_writeRegister _ _).mono (Nat.le_refl _)

theorem spends_link (node : NodeId) (parent : Option NodeId) (rings : List Nat) :
    Spends 0 (LinkTable.link (σ := Bench) node parent rings) := by
  simp only [LinkTable.link]
  split
  · exact .refuse _
  · exact .pure ()
  · exact .refuse _
  · exact (spends_setAll _ _ _).bind_free fun _ => spends_writeRegister _ _
  · exact spends_writeRegister _ _

theorem spends_unlink (node : NodeId) (rings : List Nat) :
    Spends 0 (LinkTable.unlink (σ := Bench) node rings) := by
  simp only [LinkTable.unlink]
  split
  · exact (spends_setAll _ _ _).bind_free fun _ => spends_writeRegister _ _
  · exact spends_writeRegister _ _
  · exact .pure ()
  · exact .pure ()

end Bench

namespace Limiter

open Bench (spends_sendSla spends_link spends_unlink spends_writeRegister)

variable {α π : Type} {most : Nat}

/-- The addresses that an operation on one agreement takes up at most. -/
def agreementSpan : Nat := pageSize + pageSize

theorem spends_applyCreate (plan : Tree.CreatePlan) :
    Bench.Spends agreementSpan (applyCreate plan) := by
  apply (spends_link _ _ _).free_bind
  intro _
  exact (spends_sendSla _ _ _ _ _).undoOnError (spends_unlink _ _)

theorem spends_applyUpdate (plan : Tree.UpdatePlan) :
    Bench.Spends agreementSpan (applyUpdate plan) := by
  simp only [applyUpdate]
  split
  · split
    · exact spends_sendSla _ _ _ _ _
    · apply (spends_writeRegister _ _).free_bind
      intro _
      exact (spends_sendSla _ _ _ _ _).undoOnError (spends_writeRegister _ _)
  · exact spends_sendSla _ _ _ _ _

theorem spends_applyDelete (plan : Tree.DeletePlan) :
    Bench.Spends agreementSpan (applyDelete plan) := by
  apply (spends_sendSla _ _ _ _ _).bind_free
  intro _
  exact spends_unlink _ _

/-- Whether an action on a limiter with a well-formed tree uses up a number of addresses at most. -/
abbrev Spends (most : Nat) (action : Action (Limiter Bench) α) : Prop :=
  action.Spends (fun limiter => limiter.tree.WellFormed)
    (fun limiter => limiter.device.pool.nextAddress) most

theorem spends_of_call {action : Action (Limiter Bench) α} (call : Call)
    (admissible : call.Admissible) (leaves : ∀ limiter, call.leaves limiter = (action limiter).2)
    (within : ∀ limiter, (action limiter).2.device.pool.nextAddress ≤
      limiter.device.pool.nextAddress + most) : Spends most action := by
  intro limiter sound
  refine ⟨?_, within limiter⟩
  rw [← leaves]
  exact call.wellFormed_leaves admissible sound

theorem carryOut_within {plan : Tree → Outcome π} {apply : π → Action Bench Unit}
    {commit : Tree → π → Tree} {result : π → α} (spends : ∀ planned, Bench.Spends most (apply planned))
    (limiter : Limiter Bench) :
    (carryOut plan apply commit result limiter).2.device.pool.nextAddress ≤
      limiter.device.pool.nextAddress + most := by
  have ended := carryOut_cases plan apply commit result limiter
  generalize carryOut plan apply commit result limiter = finished at ended ⊢
  cases ended with
  | refused planned => exact Nat.le_add_right _ _
  | @failed accepted failure device planned run =>
      have within := (spends accepted limiter.device trivial).2
      rwa [run] at within
  | @done accepted device planned run =>
      have within := (spends accepted limiter.device trivial).2
      rwa [run] at within

theorem spends_createSla (request : Sla) :
    Spends agreementSpan (createSla (δ := Bench) request) :=
  spends_of_call (.createSla request) trivial (fun _ => rfl) (carryOut_within spends_applyCreate)

theorem spends_updateSla (request : Sla) :
    Spends agreementSpan (updateSla (δ := Bench) request) :=
  spends_of_call (.updateSla request) trivial (fun _ => rfl) (carryOut_within spends_applyUpdate)

theorem spends_deleteSla (id : NodeId) : Spends agreementSpan (deleteSla (δ := Bench) id) :=
  spends_of_call (.deleteSla id) trivial (fun _ => rfl) (carryOut_within spends_applyDelete)

theorem onTree_within {change : Tree → Except Error (α × Tree)} (limiter : Limiter Bench) :
    (onTree change limiter).2.device.pool.nextAddress ≤ limiter.device.pool.nextAddress + 0 := by
  rw [onTree]
  split <;> exact Nat.le_refl _

theorem spends_createNode (kind : NodeKind) (service : Service) :
    Spends 0 (createNode (δ := Bench) kind service) :=
  spends_of_call (.createNode kind service) trivial (fun _ => rfl) onTree_within

theorem spends_removeNode {id : NodeId} {kind : NodeKind} (known : id.kind? = some kind)
    (inner : kind ≠ .root) : Spends 0 (removeNode (δ := Bench) id kind) :=
  spends_of_call (.removeNode id kind) ⟨known, inner⟩ (fun _ => rfl) onTree_within

theorem spends_deleteSlaIfAny (id : NodeId) :
    Spends agreementSpan (deleteSlaIfAny (δ := Bench) id) := by
  apply Action.Spends.get_bind
  intro limiter _
  apply (Action.Spends.check _).free_bind
  intro node
  split
  · exact spends_deleteSla id
  · exact (Action.Spends.pure ()).mono (Nat.zero_le _)

/-- The addresses that the removal of a node takes up at most. -/
def cascadeSpan : Nat := NodeKind.leaf.capacity * agreementSpan + agreementSpan

theorem length_nodes_le {tree : Tree} (sound : tree.WellFormed) (kind : NodeKind) :
    (tree.nodes.nodes kind).length ≤ kind.capacity := by
  rw [← sound.sized kind]
  exact List.length_filterMap_le _ _

theorem length_leavesBelow_le {tree : Tree} (sound : tree.WellFormed) (id : NodeId) (kind : NodeKind) :
    (tree.leavesBelow id kind).length ≤ NodeKind.leaf.capacity := by
  cases kind with
  | cluster =>
      simp only [Tree.leavesBelow, List.length_map]
      exact Nat.le_trans (List.length_filter_le _ _) (length_nodes_le sound .leaf)
  | root | leaf => exact Nat.zero_le _

theorem length_roots_le (roots : Roots) : roots.toList.length ≤ Service.all.length := by
  rw [Roots.toList_eq, List.length_insertionSort]
  exact List.length_filterMap_le _ _

theorem spends_deleteNode (id : NodeId) : Spends cascadeSpan (deleteNode (δ := Bench) id) := by
  apply Action.Spends.get_bind
  intro limiter sound
  apply Action.Spends.check_bind
  intro kind removable
  rcases Tree.checkRemovable_eq_ok.1 removable with ⟨known, inner, -⟩
  apply (Action.Spends.forEach (length_leavesBelow_le sound id kind) spends_deleteSla).bind
  intro _
  apply (spends_deleteSlaIfAny id).bind_free
  intro _
  exact spends_removeNode known inner

/-- The addresses that the tearing down takes up at most. -/
def tearDownSpan : Nat :=
  NodeKind.leaf.capacity * cascadeSpan +
    (NodeKind.cluster.capacity * cascadeSpan + Service.all.length * agreementSpan)

theorem spends_tearDown : Spends tearDownSpan (tearDown (δ := Bench)) := by
  have length_ids_le {limiter : Limiter Bench} (sound : limiter.tree.WellFormed) (kind : NodeKind) :
      (limiter.tree.nodes.ids kind).length ≤ kind.capacity := by
    simpa [NodeStore.ids] using length_nodes_le sound kind
  apply Action.Spends.get_bind
  intro limiter sound
  apply (Action.Spends.forEach (length_ids_le sound .leaf)
    fun id => (spends_deleteNode id).passOver).bind
  intro _
  apply Action.Spends.get_bind
  intro pruned sound_pruned
  apply (Action.Spends.forEach (length_ids_le sound_pruned .cluster)
    fun id => (spends_deleteNode id).passOver).bind
  intro _
  apply Action.Spends.get_bind
  intro bare _
  exact Action.Spends.forEach (length_roots_le _) fun entry =>
    (spends_deleteSlaIfAny entry.2).passOver

/-- The addresses that the bringing up takes up at most, once the limiter is prepared. -/
def bootstrapSpan : Nat := Service.all.length * (agreementSpan + agreementSpan)

theorem spends_plantService (service : Service) (root : NodeId) :
    Spends (agreementSpan + agreementSpan) (plantService (δ := Bench) service root) := by
  apply Action.Spends.get_bind
  intro limiter _
  apply (spends_createNode .cluster service).free_bind
  intro cluster
  have leaves : Spends 0 (Action.forEach (List.range limiter.tree.config.totalVfs) fun _ => do
      let _ ← createNode (δ := Bench) .leaf service) :=
    (Action.Spends.forEach (Nat.le_refl _)
      fun _ => (spends_createNode .leaf service).bind_free fun _ => .pure ()).mono (Nat.le_refl _)
  apply leaves.free_bind
  intro _
  refine (spends_createSla _).bind ?_
  intro _
  exact (spends_createSla _).bind_free fun _ => .pure ()

theorem spends_bootstrap : Spends bootstrapSpan (bootstrap (δ := Bench)) := by
  apply Action.Spends.get_bind
  intro limiter _
  exact Action.Spends.forEach (length_roots_le _) fun entry => spends_plantService entry.1 entry.2

/-- A limiter that comes up has taken up a page for the reset and what its agreements take. -/
theorem nextAddress_le_of_start {profile : Profile} {config : DeviceConfig} {bench after : Bench}
    {tree : Tree} (up : start profile config bench = (.ok tree, after)) :
    after.pool.nextAddress ≤ bench.pool.nextAddress + (pageSize + bootstrapSpan) := by
  simp only [start] at up
  split at up
  · cases up
  · next bare ready prepared =>
    rcases prepare_eq_ok.1 prepared with
      ⟨profile_valid, config_valid, made, reset, cleared, sent, first, second⟩
    have sound := wellFormed_rootsOnly profile_valid config_valid made
    have sending := (Bench.spends_roundTrip (.bare .init) bench trivial).2
    have clearing := (spends_writeRegister profile.pcieInBucket 0 reset trivial).2
    have clearing_too := (spends_writeRegister profile.pcieOutBucket 0 cleared trivial).2
    have sent_to : (AdminChannel.roundTrip (.bare .init) bench).2 = reset := congrArg Prod.snd sent
    rw [sent_to] at sending
    rw [first] at clearing
    rw [second] at clearing_too
    split at up
    · next limiter finished =>
      cases up
      have growing := (spends_bootstrap ⟨bare, ready⟩ sound).2
      rw [Action.undoOnError_eq_ok finished] at growing
      simp only at growing sending clearing clearing_too
      omega
    · cases up

end Limiter

end RateTree
