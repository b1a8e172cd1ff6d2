import RateTree.Proofs.PlanFaults
import RateTree.Proofs.Teardown

/-!
# Steady operations

Since no plan faults, an operation faults only where the device does, and the device is not intact
after that. Where an operation ends, with its result or with an error, the tree is well-formed and no
block of memory is still lent out. This carries over from the calls to whatever is made of them: the
removal of a cluster with its leaves, the bringing up and the tearing down.
-/

namespace RateTree

namespace Limiter

variable {δ α β π : Type}

/-- A limiter between two operations: its profile can convert the rates that it admits, and its
configuration and the number of blocks handed out are known. -/
structure AtRest [DeviceView δ] (config : DeviceConfig) (blocks : Nat) (limiter : Limiter δ) :
    Prop where
  sound : limiter.tree.WellFormed
  converts : limiter.tree.profile.Converts
  config_eq : limiter.tree.config = config
  outstanding_eq : outstanding limiter.device = blocks

/-- Whether an action that starts at rest ends at rest, unless a fault of the device cuts it short. -/
def Steady [DeviceView δ] (config : DeviceConfig) (blocks : Nat) (action : Action (Limiter δ) α) : Prop :=
  ∀ limiter, AtRest config blocks limiter →
    Action.Ensures (fun limiter => intact limiter.device) action limiter
      (fun _ => AtRest config blocks) (AtRest config blocks)

namespace Steady

variable [DeviceView δ] {config : DeviceConfig} {blocks : Nat}

theorem pure (value : α) : Steady (δ := δ) config blocks (Pure.pure value) :=
  fun _ rest => .pure rest

theorem check (checked : Except Error α) : Steady (δ := δ) config blocks (liftM checked) := by
  intro limiter rest
  apply (Action.Ensures.check rest).weaken
  · rintro value _ ⟨-, rfl⟩
    exact rest
  · exact fun _ held => held

theorem bind {action : Action (Limiter δ) α} {next : α → Action (Limiter δ) β}
    (first : Steady config blocks action) (second : ∀ value, Steady config blocks (next value)) :
    Steady config blocks (action >>= next) := by
  intro limiter rest
  apply (first limiter rest).bind
  intro value after held
  exact second value after held

theorem check_bind {checked : Except Error α} {next : α → Action (Limiter δ) β}
    (second : ∀ value, checked = .ok value → Steady config blocks (next value)) :
    Steady config blocks (liftM checked >>= next) := by
  intro limiter rest
  apply (Action.Ensures.check rest).bind
  rintro value _ ⟨passed, rfl⟩
  exact second value passed _ rest

theorem get_bind {next : Limiter δ → Action (Limiter δ) α}
    (second : ∀ limiter, Steady config blocks (next limiter)) : Steady config blocks (Action.get >>= next) :=
  fun limiter rest => second limiter limiter rest

theorem forEach {items : List α} {action : α → Action (Limiter δ) Unit}
    (each : ∀ item, Steady config blocks (action item)) :
    Steady config blocks (Action.forEach items action) := by
  intro limiter rest
  apply Action.Ensures.forEach (fun _ => AtRest config blocks) rest
  intro item _ between held
  exact each item between held

theorem passOver {action : Action (Limiter δ) Unit} (steady : Steady config blocks action) :
    Steady config blocks action.passOver :=
  fun limiter rest => (steady limiter rest).passOver fun _ held => held

theorem ask {question : Tree → Outcome α}
    (faultless : ∀ tree : Tree, tree.WellFormed → Faultless (question tree)) :
    Steady (δ := δ) config blocks (ask question) := by
  intro limiter rest
  have asked := faultless limiter.tree rest.sound
  rw [Action.Ensures, Limiter.ask]
  cases answer : question limiter.tree with
  | ok value => exact ⟨id, rest⟩
  | error failure =>
      cases failure with
      | error cause => exact ⟨id, rest⟩
      | fault cause => exact absurd trivial (asked _ answer)

/-- The tree that a call leaves is known, so only the device has to be looked at. -/
theorem of_call [RegisterAccess δ] [BlockMemory δ] [AdminTransport δ]
    {action : Action (Limiter δ) α} (call : Call) (admissible : call.Admissible)
    (leaves : ∀ limiter, call.leaves limiter = (action limiter).2)
    (device : ∀ limiter, AtRest config blocks limiter →
      Action.Ensures (fun limiter => intact limiter.device) action limiter
        (fun _ after => outstanding after.device = outstanding limiter.device)
        fun after => outstanding after.device = outstanding limiter.device) :
    Steady config blocks action := by
  intro limiter rest
  have sound := call.wellFormed_leaves admissible rest.sound
  have constants := call.sameConstants rest.sound
  rw [leaves limiter] at sound constants
  have converts : (action limiter).2.tree.profile.Converts := by
    rw [constants.1]
    exact rest.converts
  have config_eq : (action limiter).2.tree.config = config := constants.2.trans rest.config_eq
  apply ((device limiter rest).and_after (fun after => after.tree.WellFormed ∧
    after.tree.profile.Converts ∧ after.tree.config = config) ⟨sound, converts, config_eq⟩).weaken
  · rintro _ after ⟨same, sound, converts, config_eq⟩
    exact ⟨sound, converts, config_eq, same.trans rest.outstanding_eq⟩
  · rintro after ⟨same, sound, converts, config_eq⟩
    exact ⟨sound, converts, config_eq, same.trans rest.outstanding_eq⟩

end Steady

theorem carryOut_ensures [DeviceView δ] {plan : Tree → Outcome π} {apply : π → Action δ Unit}
    {commit : Tree → π → Tree} {result : π → α} {limiter : Limiter δ}
    (faultless : Faultless (plan limiter.tree))
    (applied : ∀ planned, plan limiter.tree = .ok planned →
      Action.Ensures intact (apply planned) limiter.device
        (fun _ after => outstanding after = outstanding limiter.device)
        fun after => outstanding after = outstanding limiter.device) :
    Action.Ensures (fun limiter => intact limiter.device) (carryOut plan apply commit result) limiter
      (fun _ after => outstanding after.device = outstanding limiter.device)
      fun after => outstanding after.device = outstanding limiter.device := by
  have ended := carryOut_cases plan apply commit result limiter
  rw [Action.Ensures]
  generalize carryOut plan apply commit result limiter = finished at ended ⊢
  cases ended with
  | @refused failure planned =>
      cases failure with
      | error cause => exact ⟨id, rfl⟩
      | fault cause => exact absurd trivial (faultless _ planned)
  | @failed accepted failure device planned run =>
      cases failure with
      | error cause => exact (applied accepted planned).of_error run
      | fault cause => exact (applied accepted planned).of_fault run
  | @done accepted device planned run => exact (applied accepted planned).of_ok run

theorem onTree_ensures [DeviceView δ] {change : Tree → Except Error (α × Tree)}
    (limiter : Limiter δ) :
    Action.Ensures (fun limiter => intact limiter.device) (onTree change) limiter
      (fun _ after => outstanding after.device = outstanding limiter.device)
      fun after => outstanding after.device = outstanding limiter.device := by
  rw [Action.Ensures, onTree]
  split
  · next made =>
    split at made <;> cases made
    exact ⟨id, rfl⟩
  · next made =>
    split at made <;> cases made
    exact ⟨id, rfl⟩
  · next made => split at made <;> cases made

namespace Steady

variable [LinkedDevice δ] {config : DeviceConfig} {blocks : Nat}

theorem createNode (kind : NodeKind) (service : Service) :
    Steady config blocks (Limiter.createNode (δ := δ) kind service) :=
  of_call (.createNode kind service) trivial (fun _ => rfl) fun limiter _ => onTree_ensures limiter

theorem removeNode {id : NodeId} {kind : NodeKind} (known : id.kind? = some kind)
    (inner : kind ≠ .root) : Steady config blocks (Limiter.removeNode (δ := δ) id kind) :=
  of_call (.removeNode id kind) ⟨known, inner⟩ (fun _ => rfl) fun limiter _ => onTree_ensures limiter

theorem createSla (request : Sla) : Steady config blocks (Limiter.createSla (δ := δ) request) := by
  apply of_call (.createSla request) trivial fun _ => rfl
  intro limiter rest
  apply carryOut_ensures (rest.sound.faultless_planCreate rest.converts request)
  intro plan planned
  apply ((lasting_outstanding _).create _ request plan limiter.device rest.sound planned).weaken
  · exact fun _ _ kept => kept rfl
  · exact fun _ kept => kept rfl

theorem updateSla (request : Sla) : Steady config blocks (Limiter.updateSla (δ := δ) request) := by
  apply of_call (.updateSla request) trivial fun _ => rfl
  intro limiter rest
  apply carryOut_ensures (rest.sound.faultless_planUpdate rest.converts request)
  intro plan planned
  apply ((lasting_outstanding _).update _ request plan limiter.device rest.sound planned).weaken
  · exact fun _ _ kept => kept rfl
  · exact fun _ kept => kept rfl

theorem deleteSla (id : NodeId) : Steady config blocks (Limiter.deleteSla (δ := δ) id) := by
  apply of_call (.deleteSla id) trivial fun _ => rfl
  intro limiter rest
  apply carryOut_ensures (rest.sound.faultless_planDelete id)
  intro plan planned
  apply ((lasting_outstanding _).delete _ id plan limiter.device rest.sound planned).weaken
  · exact fun _ _ kept => kept rfl
  · exact fun _ kept => kept rfl

theorem deleteSlaIfAny (id : NodeId) : Steady config blocks (Limiter.deleteSlaIfAny (δ := δ) id) := by
  apply get_bind
  intro limiter
  apply (check _).bind
  intro node
  split
  · exact deleteSla id
  · exact pure ()

theorem deleteNode (id : NodeId) : Steady config blocks (Limiter.deleteNode (δ := δ) id) := by
  apply get_bind
  intro limiter
  apply check_bind
  intro kind removable
  rcases Tree.checkRemovable_eq_ok.1 removable with ⟨known, inner, -⟩
  apply (forEach deleteSla).bind
  intro _
  apply (deleteSlaIfAny id).bind
  intro _
  exact removeNode known inner

theorem tearDown : Steady config blocks (Limiter.tearDown (δ := δ)) := by
  apply get_bind
  intro limiter
  apply (forEach fun id => (deleteNode id).passOver).bind
  intro _
  apply get_bind
  intro pruned
  apply (forEach fun id => (deleteNode id).passOver).bind
  intro _
  apply get_bind
  intro bare
  exact forEach fun entry => (deleteSlaIfAny entry.2).passOver

theorem plantService (service : Service) (root : NodeId) :
    Steady config blocks (Limiter.plantService (δ := δ) service root) := by
  apply get_bind
  intro limiter
  apply (createNode .cluster service).bind
  intro cluster
  apply (forEach fun _ => (createNode .leaf service).bind fun _ => pure ()).bind
  intro _
  refine (createSla _).bind ?_
  intro _
  exact (createSla _).bind fun _ => pure ()

theorem bootstrap : Steady config blocks (Limiter.bootstrap (δ := δ)) := by
  apply get_bind
  intro limiter
  exact forEach fun entry => plantService entry.1 entry.2

end Steady

/-- A limiter that comes up on a bench is at rest. -/
theorem atRest_of_start {profile : Profile} {config : DeviceConfig} {bench after : Bench} {tree : Tree}
    (converts : profile.Converts) (up : start profile config bench = (.ok tree, after)) :
    AtRest config (outstanding bench) ⟨tree, after⟩ := by
  simp only [start] at up
  split at up
  · cases up
  · next bare ready prepared =>
    rcases prepare_eq_ok.1 prepared with ⟨profile_valid, config_valid, made, -⟩
    rcases rootsOnly_eq_ok made with ⟨profile_eq, config_eq, -⟩
    have rest : AtRest config (outstanding bench) (⟨bare, ready⟩ : Limiter Bench) :=
      ⟨wellFormed_rootsOnly profile_valid config_valid made, profile_eq ▸ converts, config_eq,
        outstanding_of_prepare prepared⟩
    split at up
    · next limiter finished =>
      cases up
      exact ((Steady.bootstrap _ rest).of_ok (Action.undoOnError_eq_ok finished)).2
    · cases up

end Limiter

end RateTree
