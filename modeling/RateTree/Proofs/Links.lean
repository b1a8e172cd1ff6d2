import RateTree.Limiter
import RateTree.Proofs.LinkedDevice

/-!
# Linking on a device

The entries of the link tables that belong to a node are those of its rings and its own. Linking a
node sets them all, unlinking clears them all, and both leave every other entry alone. What the
device is left with when an agreement is applied to it follows, whether the firmware accepts or not.
-/

namespace RateTree

namespace LinkTable

/-- Whether an entry of a table belongs to a node with the given rings. -/
def Belongs (node : NodeId) (rings : List Nat) (table : LinkTable) (index : Nat) : Prop :=
  match table with
  | .ringToLeaf => node.kind? = some .leaf ∧ index ∈ rings
  | .leafToCluster => node.kind? = some .leaf ∧ index = node.index
  | .clusterToRoot => node.kind? = some .cluster ∧ index = node.index

/-- The node that an entry of a node under a parent points to. -/
def target (node above : NodeId) : LinkTable → NodeId
  | .ringToLeaf => node
  | .leafToCluster | .clusterToRoot => above

/-- Whether the entries that belong to a node are in the tables. -/
def Fits (node : NodeId) (rings : List Nat) : Prop :=
  ∀ table index, Belongs node rings table index → index < table.extent

end LinkTable

open LinkTable (Belongs target Fits linked unlinked)

variable {δ : Type}

section View

variable [DeviceView δ]

/-- The entries that belong to a node were set, and nothing else changed. -/
structure Linked (before after : δ) (node : NodeId) (parent : Option NodeId) (rings : List Nat) :
    Prop where
  kept : ∀ table index, index < table.extent → ¬Belongs node rings table index →
    linkEntry after table index = linkEntry before table index
  set : ∀ table index, Belongs node rings table index → ∃ above, parent = some above ∧
    linkEntry after table index = linked (target node above table).index
  outstanding_eq : outstanding after = outstanding before

/-- The entries that belong to a node were cleared, and nothing else changed. -/
structure Unlinked (before after : δ) (node : NodeId) (rings : List Nat) : Prop where
  kept : ∀ table index, index < table.extent → ¬Belongs node rings table index →
    linkEntry after table index = linkEntry before table index
  cleared : ∀ table index, Belongs node rings table index →
    linkEntry after table index = unlinked
  outstanding_eq : outstanding after = outstanding before

/-- The entry of a leaf was pointed to a cluster, and nothing else changed. -/
structure Relinked (before after : δ) (leaf cluster : NodeId) : Prop where
  links : ∀ table index, index < table.extent → linkEntry after table index =
    if table = .leafToCluster ∧ index = leaf.index then linked cluster.index
    else linkEntry before table index
  outstanding_eq : outstanding after = outstanding before

/-- An entry that belongs to a node may have been cleared, and nothing else changed. -/
structure Withdrawn (before after : δ) (node : NodeId) (rings : List Nat) : Prop where
  links : ∀ table index, index < table.extent →
    linkEntry after table index = linkEntry before table index ∨
      Belongs node rings table index ∧ linkEntry after table index = unlinked
  outstanding_eq : outstanding after = outstanding before

variable {before between after : δ} {node : NodeId} {parent : Option NodeId} {rings : List Nat}

theorem Linked.trans_undisturbed (linked : Linked before between node parent rings)
    (fits : Fits node rings) (rest : Undisturbed between after) :
    Linked before after node parent rings where
  kept table index inside other :=
    (rest.links table index inside).trans (linked.kept table index inside other)
  set table index belongs := by
    rw [rest.links table index (fits table index belongs)]
    exact linked.set table index belongs
  outstanding_eq := rest.outstanding_eq.trans linked.outstanding_eq

theorem Linked.withdrawn (linked : Linked before between node parent rings)
    (unlinked : Unlinked between after node rings) : Withdrawn before after node rings where
  links table index inside := by
    by_cases belongs : Belongs node rings table index
    · exact Or.inr ⟨belongs, unlinked.cleared table index belongs⟩
    · exact Or.inl ((unlinked.kept table index inside belongs).trans
        (linked.kept table index inside belongs))
  outstanding_eq := unlinked.outstanding_eq.trans linked.outstanding_eq

theorem Undisturbed.withdrawn (same : Undisturbed before after) :
    Withdrawn before after node rings :=
  ⟨fun table index inside => Or.inl (same.links table index inside), same.outstanding_eq⟩

theorem Undisturbed.trans_unlinked (same : Undisturbed before between)
    (unlinked : Unlinked between after node rings) : Unlinked before after node rings where
  kept table index inside other :=
    (unlinked.kept table index inside other).trans (same.links table index inside)
  cleared := unlinked.cleared
  outstanding_eq := unlinked.outstanding_eq.trans same.outstanding_eq

/-- Entries that do not belong to the leaf are kept. -/
theorem Relinked.kept {leaf cluster : NodeId} (moved : Relinked before after leaf cluster)
    (level : leaf.kind? = some .leaf) {table : LinkTable} {index : Nat}
    (inside : index < table.extent) (apart : ¬Belongs leaf rings table index) :
    linkEntry after table index = linkEntry before table index := by
  rw [moved.links table index inside, if_neg]
  rintro ⟨rfl, rfl⟩
  exact apart ⟨level, rfl⟩

theorem Relinked.trans_undisturbed {leaf cluster : NodeId} (moved : Relinked before between leaf cluster)
    (rest : Undisturbed between after) : Relinked before after leaf cluster where
  links table index inside := (rest.links table index inside).trans (moved.links table index inside)
  outstanding_eq := rest.outstanding_eq.trans moved.outstanding_eq

theorem Relinked.trans {leaf first second : NodeId} (moved : Relinked before between leaf first)
    (again : Relinked between after leaf second) : Relinked before after leaf second where
  links table index inside := by
    rw [again.links table index inside, moved.links table index inside]
    split <;> rfl
  outstanding_eq := again.outstanding_eq.trans moved.outstanding_eq

end View

variable [LinkedDevice δ] {device : δ}

namespace LinkTable

theorem setAll_ensures {table : LinkTable} {indices : List Nat} (value : UInt32)
    (inside : ∀ index ∈ indices, index < table.extent) :
    Action.Ensures intact (Action.forEach indices fun index => table.set index value) device
      (fun _ after => outstanding after = outstanding device ∧
        ∀ (other : LinkTable) place, place < other.extent →
          linkEntry after other place =
            if other = table ∧ place ∈ indices then value else linkEntry device other place)
      fun _ => False := by
  induction indices generalizing device with
  | nil =>
      refine .pure ⟨rfl, ?_⟩
      intro other place _
      simp
  | cons index rest ih =>
      apply (set_ensures value (inside index (by simp))).bind
      rintro _ between ⟨first_count, first⟩
      refine (ih fun place mem => inside place (by simp [mem])).weaken ?_ fun _ never => never
      rintro _ after ⟨rest_count, set⟩
      refine ⟨rest_count.trans first_count, ?_⟩
      intro other place there
      rw [set other place there, first other place there]
      by_cases same : other = table
      · by_cases later : place ∈ rest
        · simp [same, later]
        · simp [same, later]
      · simp [same]

theorem fits_rings {node : NodeId} {rings : List Nat} (fits : Fits node rings)
    (known : node.kind? = some .leaf) : ∀ ring ∈ rings, ring < ringToLeaf.extent :=
  fun ring mem => fits .ringToLeaf ring ⟨known, mem⟩

/-- Nothing belongs to a node that is neither a leaf nor a cluster. -/
theorem not_belongs {node : NodeId} {rings : List Nat} (no_leaf : node.kind? ≠ some .leaf)
    (no_cluster : node.kind? ≠ some .cluster) (table : LinkTable) (index : Nat) :
    ¬Belongs node rings table index := by
  cases table <;> simp [Belongs, no_leaf, no_cluster]

/-- Linking sets the entries of a node, or does nothing. -/
theorem link_ensures {node : NodeId} {parent : Option NodeId} {rings : List Nat}
    (fits : Fits node rings) :
    Action.Ensures intact (link node parent rings) device
      (fun _ after => Linked device after node parent rings) (Undisturbed device) := by
  simp only [link]
  split
  · exact .refuse (.refl device)
  · next known =>
    refine .pure ⟨fun _ _ _ _ => rfl, ?_, rfl⟩
    intro table index belongs
    exact absurd belongs (not_belongs (by simp [known]) (by simp [known]) table index)
  · exact .refuse (.refl device)
  · next above known =>
    have inside := fits .leafToCluster node.index ⟨known, rfl⟩
    refine ((setAll_ensures (linked node.index) (fits_rings fits known)).weaken
      (fun _ _ holds => holds) fun _ never => never.elim).bind ?_
    rintro _ between ⟨rings_count, rings_set⟩
    refine (set_ensures (linked above.index) inside).weaken ?_ fun _ never => never.elim
    rintro _ after ⟨leaf_count, leaf_set⟩
    refine ⟨?_, ?_, leaf_count.trans rings_count⟩
    · intro table index there other
      rw [leaf_set table index there, rings_set table index there]
      cases table <;> simp_all [Belongs]
    · intro table index belongs
      have there := fits table index belongs
      refine ⟨above, rfl, ?_⟩
      rw [leaf_set table index there, rings_set table index there]
      cases table <;> simp_all [Belongs, target]
  · next above known =>
    have inside := fits .clusterToRoot node.index ⟨known, rfl⟩
    refine (set_ensures (linked above.index) inside).weaken ?_ fun _ never => never.elim
    rintro _ after ⟨count, set⟩
    refine ⟨?_, ?_, count⟩
    · intro table index there other
      rw [set table index there]
      cases table <;> simp_all [Belongs]
    · intro table index belongs
      have there := fits table index belongs
      refine ⟨above, rfl, ?_⟩
      rw [set table index there]
      cases table <;> simp_all [Belongs, target]

theorem unlink_ensures {node : NodeId} {rings : List Nat} (fits : Fits node rings) :
    Action.Ensures intact (unlink node rings) device
      (fun _ after => Unlinked device after node rings) fun _ => False := by
  have nothing (no_leaf : node.kind? ≠ some .leaf) (no_cluster : node.kind? ≠ some .cluster) :
      Unlinked device device node rings := by
    refine ⟨fun _ _ _ _ => rfl, ?_, rfl⟩
    intro table index belongs
    exact absurd belongs (not_belongs no_leaf no_cluster table index)
  simp only [unlink]
  split
  · next known =>
    have inside := fits .leafToCluster node.index ⟨known, rfl⟩
    apply (setAll_ensures unlinked (fits_rings fits known)).bind
    rintro _ between ⟨rings_count, rings_set⟩
    refine (set_ensures unlinked inside).weaken ?_ fun _ never => never
    rintro _ after ⟨leaf_count, leaf_set⟩
    refine ⟨?_, ?_, leaf_count.trans rings_count⟩
    · intro table index there other
      rw [leaf_set table index there, rings_set table index there]
      cases table <;> simp_all [Belongs]
    · intro table index belongs
      have there := fits table index belongs
      rw [leaf_set table index there, rings_set table index there]
      cases table <;> simp_all [Belongs]
  · next known =>
    have inside := fits .clusterToRoot node.index ⟨known, rfl⟩
    refine (set_ensures unlinked inside).weaken ?_ fun _ never => never
    rintro _ after ⟨count, set⟩
    refine ⟨?_, ?_, count⟩
    · intro table index there other
      rw [set table index there]
      cases table <;> simp_all [Belongs]
    · intro table index belongs
      have there := fits table index belongs
      rw [set table index there]
      cases table <;> simp_all [Belongs]
  · next known => exact .pure (nothing (by simp [known]) (by simp [known]))
  · next known => exact .pure (nothing (by simp [known]) (by simp [known]))

theorem relink_ensures {leaf cluster : NodeId} (inside : leaf.index < leafToCluster.extent) :
    Action.Ensures intact (relink leaf cluster) device
      (fun _ after => Relinked device after leaf cluster) fun _ => False := by
  refine (set_ensures (linked cluster.index) inside).weaken ?_ fun _ never => never
  rintro _ after ⟨count, set⟩
  exact ⟨set, count⟩

end LinkTable

namespace Limiter

/-- Applying a new agreement sets the links of its node; if the firmware refuses, they are cleared. -/
theorem applyCreate_ensures {plan : Tree.CreatePlan} (fits : Fits plan.sla.node plan.rings) :
    Action.Ensures intact (applyCreate plan) device
      (fun _ after => Linked device after plan.sla.node plan.sla.parent plan.rings)
      fun after => Withdrawn device after plan.sla.node plan.rings := by
  refine ((LinkTable.link_ensures fits).weaken (fun _ _ linked => linked)
    fun _ same => same.withdrawn).bind ?_
  intro _ between linked
  refine ((AdminChannel.sendSla_ensures _ _ _ _ _).weaken
    (fun _ _ rest => linked.trans_undisturbed fits rest)
    fun _ rest => linked.trans_undisturbed fits rest).undoOnError ?_
  intro after still_linked
  exact (LinkTable.unlink_ensures fits).weaken (fun _ _ unlinked => still_linked.withdrawn unlinked)
    fun _ never => never.elim

/-- Applying a change of rates leaves the links alone. -/
theorem applyUpdate_ensures_of_stays {plan : Tree.UpdatePlan}
    (stays : ∀ source target, plan.oldParent = some source → plan.sla.parent = some target →
      source = target) :
    Action.Ensures intact (applyUpdate plan) device (fun _ => Undisturbed device)
      (Undisturbed device) := by
  simp only [applyUpdate]
  split
  · next source target was is =>
    rw [if_pos (stays source target was is)]
    exact AdminChannel.sendSla_ensures _ _ _ _ _
  · exact AdminChannel.sendSla_ensures _ _ _ _ _

/-- Applying a move points the leaf to its new cluster; if the firmware refuses, back to the old. -/
theorem applyUpdate_ensures_of_moves {plan : Tree.UpdatePlan} {source target : NodeId}
    (was : plan.oldParent = some source) (is : plan.sla.parent = some target)
    (different : source ≠ target) (inside : plan.id.index < LinkTable.leafToCluster.extent) :
    Action.Ensures intact (applyUpdate plan) device
      (fun _ after => Relinked device after plan.id target)
      fun after => Relinked device after plan.id source := by
  simp only [applyUpdate, was, is, if_neg different]
  refine ((LinkTable.relink_ensures inside).weaken (fun _ _ moved => moved)
    fun _ never => never.elim).bind ?_
  intro _ between moved
  refine ((AdminChannel.sendSla_ensures _ _ _ _ _).weaken
    (fun _ _ rest => moved.trans_undisturbed rest)
    fun _ rest => moved.trans_undisturbed rest).undoOnError ?_
  intro after still_moved
  exact (LinkTable.relink_ensures inside).weaken (fun _ _ back => still_moved.trans back)
    fun _ never => never.elim

/-- Taking an agreement away clears the links of its node once the firmware has accepted. -/
theorem applyDelete_ensures {plan : Tree.DeletePlan} (fits : Fits plan.id plan.rings) :
    Action.Ensures intact (applyDelete plan) device
      (fun _ after => Unlinked device after plan.id plan.rings) (Undisturbed device) := by
  apply (AdminChannel.sendSla_ensures _ _ _ _ _).bind
  intro _ between same
  exact (LinkTable.unlink_ensures fits).weaken (fun _ _ unlinked => same.trans_unlinked unlinked)
    fun _ never => never.elim

end Limiter

end RateTree
