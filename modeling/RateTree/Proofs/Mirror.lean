import RateTree.Proofs.Agreement
import RateTree.Proofs.Links

/-!
# The link tables mirror the tree

On a device that starts with clear link tables and stays intact, every entry of the tables that
belongs to a configured node points where the node's agreement says, and every other entry is clear,
at all times of every run. The entries are written before the firmware has answered and taken back
when it refuses; this finds them as they were because no entry has two owners.
-/

namespace RateTree

open LinkTable (Belongs Fits target linked unlinked)

variable {δ : Type}

section View

variable [DeviceView δ]

/-- No entry of the link tables points anywhere. -/
def LinksClear (device : δ) : Prop :=
  ∀ table index, index < table.extent → linkEntry device table index = unlinked

theorem LinksClear.of_sameLinks {before after : δ} (clear : LinksClear before)
    (same : SameLinks before after) : LinksClear after := by
  intro table index inside
  rw [same table index inside]
  exact clear table index inside

/-- A move of a device that leaves its link tables alone. -/
structure LinksStay (before after : δ) : Prop where
  links : SameLinks before after
  was_intact : intact after → intact before

/-- The entries that belong to the configured nodes of a tree point where their agreements say. -/
def Points (tree : Tree) (device : δ) : Prop :=
  ∀ id sla rings, tree.Owns id sla rings → ∀ table index, Belongs id rings table index →
    ∃ above, sla.parent = some above ∧
      linkEntry device table index = linked (target id above table).index

/-- The link tables of a device show the agreements of a tree and nothing else. -/
structure Mirrors (tree : Tree) (device : δ) : Prop where
  held : ∀ id sla rings, tree.Owns id sla rings → ∀ table index, Belongs id rings table index →
    ∃ above, sla.parent = some above ∧
      linkEntry device table index = linked (target id above table).index
  free : ∀ table index, index < table.extent →
    (∀ id sla rings, tree.Owns id sla rings → ¬Belongs id rings table index) →
    linkEntry device table index = unlinked

/-- What a change of an agreement does to the links: nothing if the node stays where it is, and the
entry of a leaf that moves is pointed to its new cluster. -/
inductive Repointed (plan : Tree.UpdatePlan) (before after : δ) : Prop where
  | stays (same : plan.sla.parent = plan.current.parent) (undisturbed : Undisturbed before after)
  | moves (cluster : NodeId) (leaf : plan.id.kind? = some .leaf)
      (under : plan.sla.parent = some cluster) (moved : Relinked before after plan.id cluster)

/-- The entries of other nodes stay as they are. -/
theorem Repointed.kept {plan : Tree.UpdatePlan} {before after : δ}
    (repointed : Repointed plan before after) {table : LinkTable} {index : Nat}
    (inside : index < table.extent) (apart : ¬Belongs plan.id plan.rings table index) :
    linkEntry after table index = linkEntry before table index := by
  cases repointed with
  | stays same undisturbed => exact undisturbed.links table index inside
  | moves cluster leaf under moved => exact moved.kept leaf inside apart

/-- What a refused change does to the links: nothing, or the entry of a leaf that was to move is pointed
back to its cluster. -/
inductive PutBack (plan : Tree.UpdatePlan) (before after : δ) : Prop where
  | stays (undisturbed : Undisturbed before after)
  | back (source : NodeId) (leaf : plan.id.kind? = some .leaf)
      (above : plan.current.parent = some source) (back : Relinked before after plan.id source)

theorem PutBack.kept {plan : Tree.UpdatePlan} {before after : δ}
    (putBack : PutBack plan before after) {table : LinkTable} {index : Nat}
    (inside : index < table.extent) (apart : ¬Belongs plan.id plan.rings table index) :
    linkEntry after table index = linkEntry before table index := by
  cases putBack with
  | stays undisturbed => exact undisturbed.links table index inside
  | back source leaf above back => exact back.kept leaf inside apart

theorem Repointed.outstanding_eq {plan : Tree.UpdatePlan} {before after : δ}
    (repointed : Repointed plan before after) : outstanding after = outstanding before := by
  cases repointed with
  | stays _ undisturbed => exact undisturbed.outstanding_eq
  | moves _ _ _ moved => exact moved.outstanding_eq

theorem PutBack.outstanding_eq {plan : Tree.UpdatePlan} {before after : δ}
    (putBack : PutBack plan before after) : outstanding after = outstanding before := by
  cases putBack with
  | stays undisturbed => exact undisturbed.outstanding_eq
  | back _ _ _ back => exact back.outstanding_eq

namespace Points

variable {tree next : Tree} {device after : δ}

theorem of_sameLinks (points : Points tree device) (sound : tree.WellFormed)
    (same : SameLinks device after) : Points tree after := by
  intro id sla rings owns table index belongs
  rw [same table index (sound.fits owns table index belongs)]
  exact points id sla rings owns table index belongs

theorem of_sameOwners (points : Points tree device)
    (same : ∀ id sla rings, next.Owns id sla rings ↔ tree.Owns id sla rings) :
    Points next device :=
  fun id sla rings owns => points id sla rings ((same id sla rings).1 owns)

/-- Where a node is entered, all devices that point as a tree says have the same entry. -/
theorem entry_eq {other : δ} (points : Points tree device) (also : Points tree other) {id : NodeId}
    {sla : Sla} {rings : List Nat} (owns : tree.Owns id sla rings) {table : LinkTable} {index : Nat}
    (belongs : Belongs id rings table index) :
    linkEntry other table index = linkEntry device table index := by
  rcases points id sla rings owns table index belongs with ⟨above, under, entry⟩
  rcases also id sla rings owns table index belongs with ⟨again, under_again, entry_again⟩
  rw [under, Option.some.injEq] at under_again
  rw [entry, entry_again, under_again]

/-- So their tables are the same if they are where no node is entered. -/
theorem sameLinks {other : δ} (points : Points tree device) (also : Points tree other)
    (elsewhere : ∀ table index, index < table.extent →
      (∀ id sla rings, tree.Owns id sla rings → ¬Belongs id rings table index) →
      linkEntry other table index = linkEntry device table index) : SameLinks device other := by
  intro table index inside
  by_cases owned : ∃ id sla rings, tree.Owns id sla rings ∧ Belongs id rings table index
  · rcases owned with ⟨id, sla, rings, owns, belongs⟩
    exact points.entry_eq also owns belongs
  · apply elsewhere table index inside
    exact fun id sla rings owns belongs => owned ⟨id, sla, rings, owns, belongs⟩

theorem commitCreate (points : Points tree device) (sound : tree.WellFormed) {request : Sla}
    {plan : Tree.CreatePlan} (planned : tree.planCreate request = .ok plan)
    (set : Linked device after plan.sla.node plan.sla.parent plan.rings) :
    Points (tree.commitCreate plan) after := by
  rcases Tree.planCreate_accepted planned with ⟨node, accepted⟩
  have committed := sound.commitCreate planned
  have owns := accepted.owns sound
  intro other sla owned other_owns table index belongs
  have inside := committed.fits other_owns table index belongs
  by_cases same : other = plan.sla.node
  · subst same
    rw [accepted.owns_iff sound, if_pos rfl] at other_owns
    rcases other_owns with ⟨rfl, rfl⟩
    exact set.set table index belongs
  · have apart : ¬Belongs plan.sla.node plan.rings table index := fun new_belongs =>
      same (committed.owner_unique other_owns owns belongs new_belongs)
    rw [accepted.owns_iff sound, if_neg same] at other_owns
    rw [set.kept table index inside apart]
    exact points other sla owned other_owns table index belongs

/-- Entries that are taken back belonged to nobody before. -/
theorem of_withdrawn (points : Points tree device) (sound : tree.WellFormed) {request : Sla}
    {plan : Tree.CreatePlan} (planned : tree.planCreate request = .ok plan)
    (withdrawn : Withdrawn device after plan.sla.node plan.rings) : Points tree after := by
  rcases Tree.planCreate_accepted planned with ⟨node, accepted⟩
  have committed := sound.commitCreate planned
  have owns := accepted.owns sound
  intro other sla owned other_owns table index belongs
  rcases withdrawn.links table index (sound.fits other_owns table index belongs) with
    same | ⟨new_belongs, -⟩
  · rw [same]
    exact points other sla owned other_owns table index belongs
  · rcases accepted.still_owns sound other_owns with ⟨different, still⟩
    exact absurd (committed.owner_unique still owns belongs new_belongs) different

theorem commitUpdate (points : Points tree device) (sound : tree.WellFormed)
    {request : Sla} {plan : Tree.UpdatePlan} (planned : tree.planUpdate request = .ok plan)
    (repointed : Repointed plan device after) : Points (tree.commitUpdate plan) after := by
  rcases Tree.planUpdate_accepted planned with ⟨node, accepted⟩
  intro other sla owned other_owns table index belongs
  have inside := (sound.commitUpdate planned).fits other_owns table index belongs
  rw [accepted.owns_iff sound] at other_owns
  split at other_owns
  · next same =>
    subst same
    rcases other_owns with ⟨rfl, rfl⟩
    rcases points _ _ _ accepted.owns table index belongs with ⟨above, was_under, entry⟩
    cases repointed with
    | stays same undisturbed =>
        rw [undisturbed.links table index inside]
        exact ⟨above, same.trans was_under, entry⟩
    | moves cluster leaf under moved =>
        refine ⟨cluster, under, ?_⟩
        rw [moved.links table index inside]
        cases table with
        | leafToCluster => rw [if_pos ⟨rfl, belongs.2⟩, target]
        | ringToLeaf => rw [if_neg (by simp), entry, target, target]
        | clusterToRoot =>
            have known := belongs.1
            rw [leaf] at known
            contradiction
  · next different =>
    rw [repointed.kept inside fun own =>
      different (sound.owner_unique other_owns accepted.owns belongs own)]
    exact points other sla owned other_owns table index belongs

theorem commitDelete (points : Points tree device) (sound : tree.WellFormed) {id : NodeId}
    {plan : Tree.DeletePlan} (planned : tree.planDelete id = .ok plan)
    (cleared : Unlinked device after plan.id plan.rings) :
    Points (tree.commitDelete plan) after := by
  rcases Tree.planDelete_accepted planned with ⟨node, accepted⟩
  intro other sla owned other_owns table index belongs
  rw [accepted.owns_iff sound] at other_owns
  rcases other_owns with ⟨different, other_owns⟩
  have inside := sound.fits other_owns table index belongs
  have apart : ¬Belongs plan.id plan.rings table index := fun old_belongs =>
    different (sound.owner_unique other_owns accepted.owns belongs old_belongs)
  rw [cleared.kept table index inside apart]
  exact points other sla owned other_owns table index belongs

/-- A leaf that is pointed back to its cluster is linked as before. -/
theorem undisturbed_of_putBack (points : Points tree device) {request : Sla}
    {plan : Tree.UpdatePlan} (planned : tree.planUpdate request = .ok plan)
    (putBack : PutBack plan device after) : Undisturbed device after := by
  rcases Tree.planUpdate_accepted planned with ⟨node, accepted⟩
  cases putBack with
  | stays undisturbed => exact undisturbed
  | back source leaf above back =>
      refine ⟨?_, back.outstanding_eq⟩
      intro table index inside
      rw [back.links table index inside]
      split
      · next own =>
        rcases own with ⟨rfl, rfl⟩
        rcases points _ _ _ accepted.owns .leafToCluster plan.id.index ⟨leaf, rfl⟩ with
          ⟨parent, under, entry⟩
        rw [above, Option.some.injEq] at under
        subst under
        rw [entry, target]
      · rfl

end Points

namespace Mirrors

variable {tree next : Tree} {device after : δ}

theorem points (mirrors : Mirrors tree device) : Points tree device := mirrors.held

theorem of_sameLinks (mirrors : Mirrors tree device) (sound : tree.WellFormed)
    (same : SameLinks device after) : Mirrors tree after where
  held := mirrors.points.of_sameLinks sound same
  free table index inside unowned := by
    rw [same table index inside]
    exact mirrors.free table index inside unowned

theorem of_sameOwners (mirrors : Mirrors tree device)
    (same : ∀ id sla rings, next.Owns id sla rings ↔ tree.Owns id sla rings) :
    Mirrors next device where
  held := mirrors.points.of_sameOwners same
  free table index inside unowned :=
    mirrors.free table index inside fun id sla rings owns =>
      unowned id sla rings ((same id sla rings).2 owns)

/-- The entries of a node that is linked now belonged to nobody. -/
theorem entry_was_free (mirrors : Mirrors tree device) (sound : tree.WellFormed) {request : Sla}
    {plan : Tree.CreatePlan} (planned : tree.planCreate request = .ok plan) {table : LinkTable}
    {index : Nat} (belongs : Belongs plan.sla.node plan.rings table index) :
    linkEntry device table index = unlinked := by
  rcases Tree.planCreate_accepted planned with ⟨node, accepted⟩
  have committed := sound.commitCreate planned
  have owns := accepted.owns sound
  apply mirrors.free table index (committed.fits owns table index belongs)
  intro other sla owned other_owns other_belongs
  rcases accepted.still_owns sound other_owns with ⟨different, still⟩
  exact different (committed.owner_unique still owns other_belongs belongs)

theorem commitCreate (mirrors : Mirrors tree device) (sound : tree.WellFormed) {request : Sla}
    {plan : Tree.CreatePlan} (planned : tree.planCreate request = .ok plan)
    (set : Linked device after plan.sla.node plan.sla.parent plan.rings) :
    Mirrors (tree.commitCreate plan) after where
  held := mirrors.points.commitCreate sound planned set
  free table index inside unowned := by
    rcases Tree.planCreate_accepted planned with ⟨node, accepted⟩
    rw [set.kept table index inside (unowned _ _ _ (accepted.owns sound))]
    apply mirrors.free table index inside
    intro other sla owned other_owns
    exact unowned other sla owned (accepted.still_owns sound other_owns).2

theorem commitUpdate (mirrors : Mirrors tree device) (sound : tree.WellFormed)
    {request : Sla} {plan : Tree.UpdatePlan} (planned : tree.planUpdate request = .ok plan)
    (repointed : Repointed plan device after) : Mirrors (tree.commitUpdate plan) after where
  held := mirrors.points.commitUpdate sound planned repointed
  free table index inside unowned := by
    rcases Tree.planUpdate_accepted planned with ⟨node, accepted⟩
    rw [repointed.kept inside (unowned _ _ _ (accepted.owns_changed sound))]
    apply mirrors.free table index inside
    intro other sla owned other_owns
    rcases accepted.still_owns sound other_owns with ⟨changed, still⟩
    exact unowned other changed owned still

theorem commitDelete (mirrors : Mirrors tree device) (sound : tree.WellFormed) {id : NodeId}
    {plan : Tree.DeletePlan} (planned : tree.planDelete id = .ok plan)
    (cleared : Unlinked device after plan.id plan.rings) :
    Mirrors (tree.commitDelete plan) after where
  held := mirrors.points.commitDelete sound planned cleared
  free table index inside unowned := by
    rcases Tree.planDelete_accepted planned with ⟨node, accepted⟩
    by_cases old_belongs : Belongs plan.id plan.rings table index
    · exact cleared.cleared table index old_belongs
    · rw [cleared.kept table index inside old_belongs]
      apply mirrors.free table index inside
      intro other sla owned other_owns belongs
      have different : other ≠ plan.id := by
        rintro rfl
        rcases accepted.owns.unique other_owns with ⟨-, rfl⟩
        exact old_belongs belongs
      refine unowned other sla owned ?_ belongs
      rw [accepted.owns_iff sound]
      exact ⟨different, other_owns⟩

/-- What a refused new agreement leaves cleared was clear before. -/
theorem undisturbed_of_withdrawn (mirrors : Mirrors tree device) (sound : tree.WellFormed)
    {request : Sla} {plan : Tree.CreatePlan} (planned : tree.planCreate request = .ok plan)
    (withdrawn : Withdrawn device after plan.sla.node plan.rings) : Undisturbed device after where
  links table index inside := by
    rcases withdrawn.links table index inside with same | ⟨belongs, cleared⟩
    · exact same
    · rw [cleared, mirrors.entry_was_free sound planned belongs]
  outstanding_eq := withdrawn.outstanding_eq

end Mirrors

end View

namespace Limiter

variable [LinkedDevice δ] {tree : Tree} {device : δ}

/-- What applying a plan ensures of the link tables: they mirror the committed tree when it is done and
are as they were when it is refused, if they were in line before. -/
def Relinks (tree committed : Tree) (apply : Action δ Unit) (device : δ) : Prop :=
  Action.Ensures intact apply device
    (fun _ after => Mirrors tree device → Mirrors committed after)
    fun after => Mirrors tree device → Undisturbed device after

theorem Relinks.applies {committed : Tree} {apply : Action δ Unit} (sound : tree.WellFormed)
    (relinks : Relinks tree committed apply device) :
    Applies Mirrors tree committed apply device := by
  apply Action.Ensures.weaken relinks (fun _ _ done => done)
  intro after undisturbed mirrors
  exact mirrors.of_sameLinks sound (undisturbed mirrors).links

theorem applyCreate_relinks (sound : tree.WellFormed) {request : Sla} {plan : Tree.CreatePlan}
    (planned : tree.planCreate request = .ok plan) :
    Relinks tree (tree.commitCreate plan) (applyCreate plan) device := by
  rcases Tree.planCreate_accepted planned with ⟨node, accepted⟩
  have fits := (sound.commitCreate planned).fits (accepted.owns sound)
  refine (applyCreate_ensures fits).weaken ?_ ?_
  · intro _ after set mirrors
    exact mirrors.commitCreate sound planned set
  · intro after withdrawn mirrors
    exact mirrors.undisturbed_of_withdrawn sound planned withdrawn

theorem applyUpdate_repoints (sound : tree.WellFormed) {request : Sla} {plan : Tree.UpdatePlan}
    (planned : tree.planUpdate request = .ok plan) :
    Action.Ensures intact (applyUpdate plan) device (fun _ => Repointed plan device)
      (PutBack plan device) := by
  rcases Tree.planUpdate_accepted planned with ⟨node, accepted⟩
  have current_parent := (accepted.carried sound).parent_eq
  have stays (same : plan.sla.parent = node.parent) :
      Action.Ensures intact (applyUpdate plan) device (fun _ => Repointed plan device)
        (PutBack plan device) := by
    refine (applyUpdate_ensures_of_stays ?_).weaken ?_ fun _ => PutBack.stays
    · intro source target was is
      rw [accepted.oldParent_eq, ← same, is, Option.some.injEq] at was
      exact was.symm
    · exact fun _ _ => .stays (same.trans current_parent.symm)
  cases accepted.place sound with
  | top above under => exact stays (by rw [under, above])
  | stays parent above under => exact stays (by rw [under, above])
  | moves source target parent move =>
      have leaf : plan.id.kind? = some .leaf := by rw [accepted.known sound, move.leaf]
      have inside := sound.fits accepted.owns .leafToCluster plan.id.index ⟨leaf, rfl⟩
      have was : plan.oldParent = some source := accepted.oldParent_eq.trans move.above
      exact (applyUpdate_ensures_of_moves was move.under move.different inside).weaken
        (fun _ _ => .moves target leaf move.under)
        fun _ => .back source leaf (current_parent.trans move.above)

theorem applyUpdate_relinks (sound : tree.WellFormed) {request : Sla} {plan : Tree.UpdatePlan}
    (planned : tree.planUpdate request = .ok plan) :
    Relinks tree (tree.commitUpdate plan) (applyUpdate plan) device := by
  refine (applyUpdate_repoints sound planned).weaken ?_ ?_
  · intro _ after repointed mirrors
    exact mirrors.commitUpdate sound planned repointed
  · intro after putBack mirrors
    exact mirrors.points.undisturbed_of_putBack planned putBack

theorem applyDelete_relinks (sound : tree.WellFormed) {id : NodeId} {plan : Tree.DeletePlan}
    (planned : tree.planDelete id = .ok plan) :
    Relinks tree (tree.commitDelete plan) (applyDelete plan) device := by
  rcases Tree.planDelete_accepted planned with ⟨node, accepted⟩
  refine (applyDelete_ensures (sound.fits accepted.owns)).weaken ?_ fun _ undisturbed _ => undisturbed
  intro _ after cleared mirrors
  exact mirrors.commitDelete sound planned cleared

theorem lasting_mirrors : Lasting (Mirrors (δ := δ)) where
  same_owners _ _ _ _ same mirrors := mirrors.of_sameOwners same
  create _ _ _ _ sound planned := (applyCreate_relinks sound planned).applies sound
  update _ _ _ _ sound planned := (applyUpdate_relinks sound planned).applies sound
  delete _ _ _ _ sound planned := (applyDelete_relinks sound planned).applies sound

theorem lasting_points : Lasting (Points (δ := δ)) where
  same_owners _ _ _ _ same points := points.of_sameOwners same
  create tree request plan device sound planned := by
    rcases Tree.planCreate_accepted planned with ⟨node, accepted⟩
    have fits := (sound.commitCreate planned).fits (accepted.owns sound)
    refine (applyCreate_ensures fits).weaken ?_ ?_
    · intro _ after set points
      exact points.commitCreate sound planned set
    · intro after withdrawn points
      exact points.of_withdrawn sound planned withdrawn
  update tree request plan device sound planned := by
    refine (applyUpdate_repoints sound planned).weaken ?_ ?_
    · intro _ after repointed points
      exact points.commitUpdate sound planned repointed
    · intro after putBack points
      exact points.of_sameLinks sound (points.undisturbed_of_putBack planned putBack).links
  delete tree id plan device sound planned := by
    rcases Tree.planDelete_accepted planned with ⟨node, accepted⟩
    refine (applyDelete_ensures (sound.fits accepted.owns)).weaken ?_ ?_
    · intro _ after cleared points
      exact points.commitDelete sound planned cleared
    · intro after undisturbed points
      exact points.of_sameLinks sound undisturbed.links

/-- Every call gives back the memory that it is handed out. -/
theorem lasting_outstanding (count : Nat) :
    Lasting fun _ (device : δ) => outstanding device = count where
  same_owners _ _ _ _ _ same := same
  create tree request plan device sound planned := by
    rcases Tree.planCreate_accepted planned with ⟨node, accepted⟩
    have fits := (sound.commitCreate planned).fits (accepted.owns sound)
    exact (applyCreate_ensures fits).weaken (fun _ _ linked => linked.outstanding_eq.trans)
      fun _ withdrawn => withdrawn.outstanding_eq.trans
  update tree request plan device sound planned :=
    (applyUpdate_repoints sound planned).weaken (fun _ _ repointed => repointed.outstanding_eq.trans)
      fun _ putBack => putBack.outstanding_eq.trans
  delete tree id plan device sound planned := by
    rcases Tree.planDelete_accepted planned with ⟨node, accepted⟩
    exact (applyDelete_ensures (sound.fits accepted.owns)).weaken
      (fun _ _ unlinked => unlinked.outstanding_eq.trans)
      fun _ undisturbed => undisturbed.outstanding_eq.trans

theorem mirrors_of_prepare {profile : Profile} {config : DeviceConfig} {device ready : δ}
    {bare : Tree} (clean : LinksClear device)
    (prepared : prepare profile config device = (.ok bare, ready)) : Mirrors bare ready := by
  rcases prepare_eq_ok.1 prepared with ⟨-, -, made, reset, cleared, sent, first, second⟩
  have keeps := ((AdminChannel.roundTrip_ensures _).of_ok sent).2
  have first_clear := ((LinkedDevice.write_zero _ _).of_ok first).2
  have second_clear := ((LinkedDevice.write_zero _ _).of_ok second).2
  constructor
  · rintro id sla rings ⟨node, found, bound, -⟩
    rw [vacant_rootsOnly made found] at bound
    contradiction
  · intro table index inside _
    apply second_clear table index inside
    apply first_clear table index inside
    exact clean.of_sameLinks keeps.links table index inside

/-- In every run on a device that starts with clear link tables, the tables mirror the tree for as
long as the device is intact. -/
theorem Reachable.mirrors {profile : Profile} {config : DeviceConfig} {limiter : Limiter δ}
    (reached : Reachable profile config LinksClear LinksStay limiter)
    (still : intact limiter.device) : Mirrors limiter.tree limiter.device := by
  refine lasting_mirrors.underway ?_ ?_ reached.underway still
  · intro device bare ready clean prepared
    exact mirrors_of_prepare clean prepared
  · intro tree device after sound stay still
    exact ⟨stay.was_intact still, fun mirrors => mirrors.of_sameLinks sound stay.links⟩

/-- Whatever the tables held at first, the entries of the configured nodes are right. -/
theorem Reachable.points {profile : Profile} {config : DeviceConfig} {initial : δ → Prop}
    {limiter : Limiter δ} {moves : δ → δ → Prop}
    (reached : Reachable profile config initial moves limiter)
    (stay : ∀ before after, moves before after → LinksStay before after)
    (still : intact limiter.device) : Points limiter.tree limiter.device := by
  refine lasting_points.underway ?_ ?_ reached.underway still
  · intro device bare ready _ prepared
    rcases prepare_eq_ok.1 prepared with ⟨-, -, made, -⟩
    rintro id sla rings ⟨node, found, bound, -⟩
    rw [vacant_rootsOnly made found] at bound
    contradiction
  · intro tree device after sound move still
    have stays := stay device after move
    exact ⟨stays.was_intact still, fun points => points.of_sameLinks sound stays.links⟩

end Limiter

end RateTree
